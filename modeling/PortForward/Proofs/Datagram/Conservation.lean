import PortForward.Proofs.Datagram.Forwarding
import PortForward.Proofs.Datagram.Replies
import PortForward.Proofs.Datagram.Settling
import PortForward.Proofs.Effects

/-!
# Conservation

The books of the loop and of the sockets together, over a whole run. Nothing is lost,
doubled or misdirected: every datagram and every reply has one outcome, for the client that
owns the socket, and nothing is sent that is not the outcome of one. What is still in hand
has its outcome once the relay has nothing left to do.
-/

namespace PortForward

open DatagramRelay

/-- The payloads that arrived from a client. -/
def arrivedFrom (client : SocketAddress) (past : List (Moment DatagramRelay)) : List Bytes :=
  (past.flatMap Moment.arrivals).flatMap fun (c, payload) => if c = client then [payload] else []

/-- A line that is about no datagram and no reply in particular. -/
def Effect.isAside : Effect → Bool
  | log (.forwarded ..) | log (.forwardFailed ..) | log (.replied ..) | log (.replyFailed ..) =>
    false
  | log _ => true
  | _ => false

namespace DatagramRelay

/-- The books of a run: what became of each datagram, and of each reply on each socket. -/
structure Conserves (backend : SocketAddress) (past : List (Moment DatagramRelay))
    (r : DatagramRelay) (dispatches : List Dispatch) (answers : Nat → List Answer) : Prop where
  datagrams : past.flatMap Moment.arrivals = dispatches.map Dispatch.datagram ++ r.inHand
  /-- each was looked up once, and went to the socket of its client's entry -/
  lookups : past.flatMap Moment.lookups = dispatches.map Dispatch.lookup ++ r.foundInHand
  lookup_own : ∀ client socket, (client, some socket) ∈ past.flatMap Moment.lookups →
    (client, socket) ∈ past.flatMap Moment.openings
  /-- until it is sent the entry is that one, or is gone -/
  entry_of_sending : ∀ m ∈ past, ∀ client payload socket retried,
    m.before.loop = .sending client payload socket retried →
    ∀ s, (client, s) ∈ m.before.table.ties → s = socket
  forwards : past.flatMap Moment.forwards = dispatches.flatMap (Dispatch.effects backend)
  replies : ∀ s, past.flatMap (Moment.replies · s) = (answers s).map Answer.payload ++ r.replyInHand s
  answered : ∀ s, past.flatMap (Moment.answers · s) = (answers s).flatMap Answer.effects
  answer_own : ∀ s, ∀ a ∈ answers s, (a.client, s) ∈ past.flatMap Moment.openings
  one_owner : ((past.flatMap Moment.openings).map Prod.snd).Nodup
  nothing_else : ∀ m ∈ past, ∀ effect ∈ m.effects,
    effect ∈ m.forwards ∨ (∃ s, effect ∈ m.answers s) ∨ effect.isAside
  in_order : ∀ client socket, (client, socket) ∈ past.flatMap Moment.openings →
    (sentOn socket (past.flatMap (·.effects))).Sublist (arrivedFrom client past)

variable {closed closed' : Bool} {r r' : DatagramRelay} {turn : Turn DatagramRelay}

theorem effect_of_transition {event : Event} (h : Transition closed r event turn)
    {effect : Effect} (heffect : effect ∈ turn.effects) :
    let m : Moment DatagramRelay :=
      ⟨closed, r, .service (.datagram event), turn.effects, turn.next⟩
    effect.isForward ∨ (∃ s, effect ∈ m.answers s) ∨ effect.isAside := by
  cases h with
  | @replied socket | @replyFailed socket =>
    refine .inr (.inl ⟨socket, ?_⟩)
    simpa [Moment.answers] using heffect
  | sweep =>
    obtain ⟨⟨client, flow⟩, -, rfl⟩ := List.mem_map.mp heffect
    exact .inr (.inr rfl)
  | opened _ _ _ hnotices =>
    split at hnotices
    · obtain ⟨a, -, rfl⟩ := hnotices
      cases List.mem_singleton.mp heffect
      exact .inr (.inr rfl)
    · subst hnotices
      cases heffect
  | sent =>
    simp only [Turn.on_effects, List.mem_cons, List.not_mem_nil, or_false] at heffect
    rcases heffect with rfl | rfl
    · exact .inl rfl
    · exact .inl rfl
  | unopened | unnamed | sendFailed =>
    cases List.mem_singleton.mp heffect
    exact .inl rfl
  | replyRefused | replyBroken | forgot | replyStopped =>
    cases List.mem_singleton.mp heffect
    exact .inr (.inr rfl)
  | _ => cases heffect

/-- Besides datagrams, replies and the lines about them there are other lines only. -/
theorem effect_of_passage {event : Proxy.Event} {effects : List Effect}
    (h : Passage r closed event effects closed' r') {effect : Effect} (heffect : effect ∈ effects) :
    let m : Moment DatagramRelay := ⟨closed, r, event, effects, r'⟩
    effect ∈ m.forwards ∨ (∃ s, effect ∈ m.answers s) ∨ effect.isAside := by
  intro m
  have hforward : effect.isForward → effect ∈ m.forwards :=
    fun hf => List.mem_filter.mpr ⟨heffect, hf⟩
  cases h with
  | refused | closed => cases heffect
  | started =>
    cases List.mem_singleton.mp heffect
    exact .inr (.inr rfl)
  | moved ht => exact (effect_of_transition ht heffect).imp_left hforward
  | finished ht hend =>
    cases ht with
    | drained =>
      cases List.mem_singleton.mp heffect
      exact .inr (.inr rfl)
    | _ => cases hend

theorem lookup_held {m : Moment DatagramRelay} {client : SocketAddress} {socket : Nat}
    (h : (client, some socket) ∈ m.lookups) : (client, socket) ∈ m.after.table.ties := by
  unfold Moment.lookups at h
  split at h
  · obtain ⟨rfl, hsocket⟩ := Prod.mk.inj (List.mem_singleton.mp h)
    obtain ⟨flow, hflow, rfl⟩ := Option.map_eq_some_iff.mp hsocket.symm
    exact FlowTable.tie_of_find? hflow
  · cases h

theorem inHand_of_quiet (h : r.IsQuiet closed) : r.inHand = [] := by
  rcases h.loop_eq with hloop | hloop | ⟨hloop, -⟩ <;> simp only [inHand, hloop]

theorem replyInHand_of_quiet (h : r.IsQuiet closed) (s : Nat) : r.replyInHand s = [] := by
  unfold replyInHand
  split
  · rename_i t htask
    rw [(h.task_eq htask).1]
    rfl
  · rfl

end DatagramRelay

section Order

theorem transmissions_filter (effects : List Effect) :
    transmissions (effects.filter Effect.isForward) = transmissions effects := by
  induction effects with
  | nil => rfl
  | cons effect effects ih =>
    unfold transmissions at ih ⊢
    by_cases hf : effect.isForward
    · rw [List.filter_cons_of_pos hf, List.flatMap_cons, List.flatMap_cons, ih]
    · rw [List.filter_cons_of_neg hf, List.flatMap_cons, ih]
      cases effect with
      | transmit => exact absurd rfl hf
      | _ => rfl

theorem sentOn_filter (socket : Nat) (effects : List Effect) :
    sentOn socket (effects.filter Effect.isForward) = sentOn socket effects := by
  rw [sentOn_eq_transmissions, sentOn_eq_transmissions, transmissions_filter]

theorem sentOn_dispatch {client : SocketAddress} {socket : Nat} {backend : SocketAddress}
    {d : Dispatch} (hown : d.fate.socket? = some socket → d.client = client) :
    (sentOn socket (d.effects backend)).Sublist
      (if d.client = client then [d.payload] else []) := by
  unfold Dispatch.effects
  split
  · rename_i s hfate
    by_cases hs : s = socket
    · subst hs
      rw [if_pos (hown (by rw [hfate]; rfl))]
      simp [sentOn]
    · simp [sentOn, hs]
  · simp [sentOn]
  · simp [sentOn]

theorem sentOn_dispatches {client : SocketAddress} {socket : Nat} {backend : SocketAddress}
    {ds : List Dispatch}
    (hown : ∀ d ∈ ds, d.fate.socket? = some socket → d.client = client) :
    (sentOn socket (ds.flatMap (Dispatch.effects backend))).Sublist
      ((ds.map Dispatch.datagram).flatMap
        fun (c, payload) => if c = client then [payload] else []) := by
  induction ds with
  | nil => exact .slnil
  | cons d ds ih =>
    have hhead : (sentOn socket (d.effects backend)).Sublist
        (if d.client = client then [d.payload] else []) :=
      sentOn_dispatch (hown d List.mem_cons_self)
    have htail := ih fun d' hd' => hown d' (List.mem_cons_of_mem d hd')
    unfold sentOn at hhead htail ⊢
    rw [List.flatMap_cons, List.flatMap_append, List.map_cons, List.flatMap_cons]
    exact hhead.append htail

end Order

section History

variable {frontend : Address} {backend : SocketAddress} {level : Level} {timeout : Nat}
variable {past : List (Moment DatagramRelay)} {p : Proxy} {r : DatagramRelay}

theorem lookup_own_of_history
    (h : History .datagram (.ofDatagrams frontend backend level timeout) past p r) :
    ∀ client socket, (client, some socket) ∈ past.flatMap Moment.lookups →
      (client, socket) ∈ past.flatMap Moment.openings := by
  refine (h.owned_induction (motive := fun past _ _ =>
    ∀ client socket, (client, some socket) ∈ past.flatMap Moment.lookups →
      (client, socket) ∈ past.flatMap Moment.openings) nofun ?_).1
  intro past closed r event effects closed' r' htracks howned hown hpass client socket hmem
  rw [List.flatMap_append] at hmem ⊢
  rcases List.mem_append.mp hmem with hmem | hmem
  · exact List.mem_append_left _ (hown client socket hmem)
  · rw [List.flatMap_singleton] at hmem ⊢
    exact (howned.passage htracks hpass).held (mem_heldTies.mpr (.inl (lookup_held hmem)))

theorem entry_of_sending
    (h : History .datagram (.ofDatagrams frontend backend level timeout) past p r) :
    ∀ m ∈ past, ∀ client payload socket retried,
      m.before.loop = .sending client payload socket retried →
      ∀ s, (client, s) ∈ m.before.table.ties → s = socket := by
  refine (h.owned_induction (motive := fun past _ _ => ∀ m ∈ past,
    ∀ client payload socket retried, m.before.loop = .sending client payload socket retried →
      ∀ s, (client, s) ∈ m.before.table.ties → s = socket)
    (fun _ hm => absurd hm List.not_mem_nil) ?_).1
  intro past closed r event effects closed' r' _ howned hpast _ m hm
  rcases List.mem_append.mp hm with hm | hm
  · exact hpast m hm
  · cases List.mem_singleton.mp hm
    intro client payload socket retried hloop s hs
    exact howned.sending (mem_loopTies hloop) hs

theorem nothing_else_of_history
    (h : History .datagram (.ofDatagrams frontend backend level timeout) past p r) :
    ∀ m ∈ past, ∀ effect ∈ m.effects,
      effect ∈ m.forwards ∨ (∃ s, effect ∈ m.answers s) ∨ effect.isAside := by
  refine (h.datagram_induction (motive := fun past _ _ => ∀ m ∈ past, ∀ effect ∈ m.effects,
    effect ∈ m.forwards ∨ (∃ s, effect ∈ m.answers s) ∨ effect.isAside)
    (fun _ hm => absurd hm List.not_mem_nil) ?_).1
  intro past closed r event effects closed' r' hpast hpass m hm effect heffect
  rcases List.mem_append.mp hm with hm | hm
  · exact hpast m hm effect heffect
  · cases List.mem_singleton.mp hm
    exact effect_of_passage hpass heffect

theorem conserves_of_history
    (h : History .datagram (.ofDatagrams frontend backend level timeout) past p r) :
    ∃ dispatches answers, Conserves backend past r dispatches answers := by
  obtain ⟨ds, hds, -⟩ := dealt_of_history h
  choose as has hown using answered_of_history h
  have howned := owned_of_history h
  have hlookups := lookup_own_of_history h
  refine ⟨ds, as, hds.datagrams, hds.lookups, hlookups, entry_of_sending h, hds.forwards,
    fun s => (has s).payloads, fun s => (has s).effects, hown, howned.nodup,
    nothing_else_of_history h, ?_⟩
  intro client socket hopened
  have hdatagrams : past.flatMap Moment.arrivals = ds.map Dispatch.datagram ++ r.inHand :=
    hds.datagrams
  have hforwards : (past.flatMap (·.effects)).filter Effect.isForward =
      past.flatMap Moment.forwards := List.filter_flatMap ..
  rw [← sentOn_filter, hforwards, hds.forwards, arrivedFrom, hdatagrams, List.flatMap_append]
  refine (sentOn_dispatches ?_).trans (List.sublist_append_left _ _)
  intro d hd hsocket
  have hlook : (d.client, some socket) ∈ past.flatMap Moment.lookups := by
    have heq : past.flatMap Moment.lookups = ds.map Dispatch.lookup ++ r.foundInHand := hds.lookups
    rw [heq]
    exact List.mem_append_left _ (List.mem_map.mpr ⟨d, hd, by rw [Dispatch.lookup, hsocket]⟩)
  exact howned.unique (hlookups _ _ hlook) hopened

end History

/-- In every run of a datagram proxy every datagram and every reply has one outcome, and nothing
else is sent; what is in hand has its outcome after a bounded number of further steps. -/
theorem conserves_of_runAll {frontend : Address} {backend : SocketAddress} {level : Level}
    {timeout : Nat} {events : List Proxy.Event} {effects : List Effect} {p : Proxy}
    (hrun : (Proxy.ofDatagrams frontend backend level timeout).runAll events = some (p, effects)) :
    ∃ past r dispatches answers,
      History .datagram (.ofDatagrams frontend backend level timeout) past p r ∧
      past.map (·.event) = events ∧ past.flatMap (·.effects) = effects ∧
      Conserves backend past r dispatches answers ∧
      (r.IsQuiet p.isClosed → r.inHand = [] ∧ ∀ s, r.replyInHand s = []) ∧
      ∀ own q more, (∀ event ∈ own, event.isOwn) → p.runAll (ofRelay own) = some (q, more) →
        own.length ≤ r.work := by
  obtain ⟨past, r, hist, hevents, heffects⟩ := exists_history Service.isKind_datagram rfl hrun
  obtain ⟨ds, as, hbooks⟩ := conserves_of_history hist
  refine ⟨past, r, ds, as, hist, hevents, heffects, hbooks, ?_, ?_⟩
  · exact fun hquiet => ⟨inHand_of_quiet hquiet, replyInHand_of_quiet hquiet⟩
  · exact fun own q more hown hmore => length_le_work hist hown hmore

/-- One datagram finds no socket, one is sent at the second try, and one is not sent at all; one
reply is passed on, and one is not. -/
theorem conserves_failures :
    let first : SocketAddress := .v4 .loopback 5001
    let second : SocketAddress := .v4 .loopback 5002
    let backend : SocketAddress := .v4 .loopback 5353
    let refused : IoError := .os 111
    let busy : IoError := .os 105
    let opening : Opening := ⟨.ok (), .ok (.v4 .loopback 6000)⟩
    let events : List DatagramRelay.Event :=
      [.sweep, .receive (.ok (first, [1])), .lookUp ⟨.error busy, .error busy⟩,
        .receive (.ok (first, [2])), .lookUp opening, .send (.error refused), .send (.ok ()),
        .receive (.ok (second, [3])), .replyReceive 0 (.ok [4]), .lookUp opening,
        .send (.error busy), .refresh 0, .replyReceive 1 (.ok [5]), .refresh 1,
        .replySend 1 (.error busy), .replySend 0 (.ok ())]
    let effects : List Effect :=
      [.log (.datagramRunning (.datagram (.v4 .loopback 53)) (.datagram backend)),
        .log (.forwardFailed first busy), .transmit 0 [2], .log (.forwarded 1 first backend),
        .log (.forwardFailed second busy), .log (.replyFailed second busy), .reply first [4],
        .log (.replied 1 first)]
    let made := Proxy.ofDatagrams (.datagram (.v4 .loopback 53)) backend .warn DatagramRelay.defaultTimeout
    ∃ p, made.runAll (.run :: ofRelay events) = some (p, effects) ∧
      ∃ past r dispatches answers,
        History .datagram made past p r ∧
        past.map (·.event) = .run :: ofRelay events ∧ past.flatMap (·.effects) = effects ∧
        Conserves backend past r dispatches answers ∧
        (r.IsQuiet p.isClosed → r.inHand = [] ∧ ∀ s, r.replyInHand s = []) ∧
        ∀ own q more, (∀ event ∈ own, event.isOwn) → p.runAll (ofRelay own) = some (q, more) →
          own.length ≤ r.work := by
  intro first second backend refused busy opening events effects made
  have hfinal : (made.runAll (.run :: ofRelay events)).map Prod.snd = some effects := by
    decide +kernel
  obtain ⟨⟨p, shown⟩, hrun, rfl⟩ := Option.map_eq_some_iff.mp hfinal
  exact ⟨p, hrun, conserves_of_runAll hrun⟩

/-- A datagram has found the socket of its client and is not yet sent when that socket breaks. The
reply task removes the entry, and the datagram is sent on the socket all the same. -/
theorem sent_without_entry :
    let client : SocketAddress := .v4 .loopback 5001
    let backend : SocketAddress := .v4 .loopback 5353
    let opening : Opening := ⟨.ok (), .ok (.v4 .loopback 6000)⟩
    let events : List DatagramRelay.Event :=
      [.sweep, .receive (.ok (client, [1])), .lookUp opening, .send (.ok ()),
        .receive (.ok (client, [2])), .lookUp opening, .replyReceive 0 (.error (.os 5)), .forget 0]
    let frontend : Address := .datagram (.v4 .loopback 53)
    let made := Proxy.ofDatagrams frontend backend .warn DatagramRelay.defaultTimeout
    let r : DatagramRelay :=
      { DatagramRelay.idle backend .warn with
        nextSweep := 30 * Duration.second
        loop := .sending client [2] 0 false
        opened := 1 }
    ∃ p, (made.runAll (.run :: ofRelay events)).map Prod.fst = some p ∧ p.service = .datagram r ∧
      r.table.find? client = none ∧
      (p.step (.service (.datagram (.send (.ok ()))))).map Prod.snd =
        some [.transmit 0 [2], .log (.forwarded 1 client backend)] := by
  intro client backend opening events frontend made r
  let p : Proxy := ⟨frontend, ⟨none, false⟩, [.running], .datagram r⟩
  have hrun : (made.runAll (.run :: ofRelay events)).map Prod.fst = some p := by decide +kernel
  exact ⟨p, hrun, rfl, rfl, by decide +kernel⟩

end PortForward

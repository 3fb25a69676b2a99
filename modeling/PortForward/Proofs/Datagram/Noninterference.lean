import PortForward.Proofs.Datagram.Forwarding
import PortForward.Proofs.Datagram.Mirroring
import PortForward.Proofs.Datagram.Replies

/-!
# Clients do not interfere

A run of a datagram proxy with the steps for all clients but one left out is a run again,
and shows that client the same: the same payloads on the same flows, the same replies, and
its flows opened and ended at the same times. Only the numbers of its sockets and the
addresses of sockets may differ.
-/

namespace PortForward

open DatagramRelay

/-- What a client can tell of a run. A flow goes by the number of its socket; one that has
not expired was dropped because its socket failed, or because the run was over. -/
inductive Sight
  | opened (flow : Nat)
  | expired (flow : Nat)
  | dropped (flow : Nat)
  | sent (flow : Nat) (payload : Bytes)
  | received (payload : Bytes)

namespace Sight

def renumber (f : Nat → Nat) : Sight → Sight
  | opened s => opened (f s)
  | expired s => expired (f s)
  | dropped s => dropped (f s)
  | sent s payload => sent (f s) payload
  | received payload => received payload

end Sight

def FlowTable.socketsOf (t : FlowTable) (client : SocketAddress) : List Nat :=
  t.filterMap fun (c, f) => if c = client then some f.socket else none

/-- What a client can tell of an effect of a step in which the loop deals with `atHand`. -/
def Effect.sights (client : SocketAddress) (atHand : Option SocketAddress) : Effect → List Sight
  | transmit socket payload => if atHand = some client then [.sent socket payload] else []
  | reply c payload => if c = client then [.received payload] else []
  | _ => []

namespace Moment

variable (m : Moment DatagramRelay) (client : SocketAddress)

def isSweep : Bool :=
  match m.event with
  | .service (.datagram .sweep) => true
  | _ => false

def sights : List Sight :=
  let before := m.before.table.socketsOf client
  let after := m.after.table.socketsOf client
  (after.filter (· ∉ before)).map .opened ++
    (before.filter (· ∉ after)).map (if m.isSweep then .expired else .dropped) ++
    m.effects.flatMap (·.sights client m.before.loop.client?)

end Moment

/-- All that a client can tell of a run, with the times. -/
def view (client : SocketAddress) (past : List (Moment DatagramRelay)) : List (Nat × Sight) :=
  past.flatMap fun m => (m.sights client).map fun sight => (m.after.now, sight)

def Proxy.withRelay (p : Proxy) (r : DatagramRelay) : Proxy := { p with service := .datagram r }

namespace Naming

/-- What an event of the proxy is for the client's part. -/
def proxyEvent (n : Naming) (r : DatagramRelay) : Proxy.Event → Option Proxy.Event
  | .service (.datagram event) => (n.event r event).map fun event => .service (.datagram event)
  | event => some event

def moment (n : Naming) (m : Moment DatagramRelay) : Option (Moment DatagramRelay) :=
  (n.proxyEvent m.before m.event).map fun event =>
    ⟨m.closed, n.relay m.before, event, n.effects (n.socket m.before.opened) m.effects,
      n.relay m.after⟩

variable {n : Naming} {owners : List SocketAddress} {p q : Proxy} {r r' : DatagramRelay}
variable {effects : List Effect}

theorem step_run (hr : p.service = .datagram r) (hstep : p.step .run = some (q, effects))
    (hr' : q.service = .datagram r') :
    (p.withRelay (n.relay r)).step .run =
      some (q.withRelay (n.relay r'), n.effects (n.socket r.opened) effects) := by
  have hrun : p.run = (q, effects) := Option.some.inj hstep
  unfold Proxy.run at hrun
  simp only [Proxy.step, Proxy.run, Proxy.withRelay]
  cases hgate : p.gate.start with
  | mk answer gate =>
    rw [hgate] at hrun
    cases answer with
    | error e =>
      obtain ⟨rfl, rfl⟩ := Prod.mk.inj hrun
      cases hr.symm.trans hr'
      rfl
    | ok listener =>
      obtain ⟨rfl, rfl⟩ := Prod.mk.inj hrun
      rw [hr] at hr' ⊢
      cases hr'
      rfl

/-- A step of the proxy is nothing to the client, or a step of the proxy around the client's
part. -/
theorem step_withRelay {event : Proxy.Event} (hown : r.OwnedBy owners)
    (hrank : n.Ranks (owners ++ Moment.owners ⟨p.isClosed, r, event, effects, r'⟩))
    (hr : p.service = .datagram r) (hstep : p.step event = some (q, effects))
    (hr' : q.service = .datagram r') :
    (n.proxyEvent r event = none ∧
        q.withRelay (n.relay r') = p.withRelay (n.relay r) ∧ n.relay r' = n.relay r) ∨
      ∃ e, n.proxyEvent r event = some e ∧ (p.withRelay (n.relay r)).step e =
        some (q.withRelay (n.relay r'), n.effects (n.socket r.opened) effects) := by
  cases event with
  | run => exact .inr ⟨.run, rfl, step_run hr hstep hr'⟩
  | close =>
    cases hstep
    cases hr.symm.trans hr'
    exact .inr ⟨.close, rfl, rfl⟩
  | service event =>
    obtain ⟨turn, hturn, hq⟩ := Proxy.step_service hstep
    rw [hr] at hturn
    cases event with
    | datagram e =>
      obtain ⟨t, ht, rfl⟩ := Option.map_eq_some_iff.mp hturn
      have htrans := transition_of_step ht
      have hnext : r' = t.next := by
        rcases hq with ⟨-, rfl, -⟩ | ⟨loopEnd, -, rfl, -⟩ <;> cases hr' <;> rfl
      subst hnext
      rcases Naming.mirrors_of_transition hown hrank htrans with ⟨hevent, hsame⟩ | ⟨e', hevent, htrans'⟩
      · have hend : t.loopEnd = none := by
          cases htrans with
          | drained => cases hevent
          | _ => rfl
        obtain ⟨-, rfl, -⟩ := hq.resolve_right fun ⟨_, hsome, _⟩ => by
          rw [hend] at hsome
          cases hsome
        refine .inl ⟨by simp [proxyEvent, hevent], ?_, hsame⟩
        rw [hsame]
        rfl
      · refine .inr ⟨.service (.datagram e'), by simp [proxyEvent, hevent], ?_⟩
        have hstep' := step_of_transition htrans'
        have hclosed : (p.withRelay (n.relay r)).isClosed = p.isClosed := rfl
        have hservice : (p.withRelay (n.relay r)).service = .datagram (n.relay r) := rfl
        simp only [Proxy.step, hclosed, hservice, Service.step, hstep', Option.map_some]
        rcases hq with ⟨hend, rfl, rfl⟩ | ⟨loopEnd, hend, rfl, rfl⟩
        · rw [show t.loopEnd = none from hend]
          rfl
        · have heffects : n.effects (n.socket r.opened)
              (t.effects ++ [.log (.datagramStopped p.frontend)]) =
              n.effects (n.socket r.opened) t.effects ++ [.log (.datagramStopped p.frontend)] :=
            List.filterMap_append
          rw [show t.loopEnd = some loopEnd from hend]
          exact congrArg some (Prod.ext rfl heffects.symm)
    | _ => cases hturn

theorem relay_fresh {backend : SocketAddress} {level : Level} {timeout : Nat}
    (hrank : n.Ranks []) : n.relay (.fresh backend level timeout) = .fresh backend level timeout := by
  have hzero : n.socket 0 = 0 := hrank 0 (Nat.le_refl 0)
  simp [relay, fresh, idle, phase, table, tasks, hzero]

end Naming

section History

variable {n : Naming} {frontend : Address} {backend : SocketAddress} {level : Level}
variable {timeout : Nat} {past : List (Moment DatagramRelay)} {p : Proxy} {r : DatagramRelay}

/-- What is left of a run for one client is a run. -/
theorem History.alone
    (h : History .datagram (.ofDatagrams frontend backend level timeout) past p r)
    (hrank : n.Ranks (past.flatMap Moment.owners)) :
    History .datagram (.ofDatagrams frontend backend level timeout) (past.filterMap n.moment)
      (p.withRelay (n.relay r)) (n.relay r) := by
  -- The numbers of the client's sockets depend on the whole run, so they are fixed before it.
  induction h with
  | @nil s hs =>
    have hs : Service.datagram (.fresh backend level timeout) = .datagram s := hs
    obtain rfl := Service.datagram.inj hs
    rw [Naming.relay_fresh hrank]
    exact .nil rfl
  | @snoc past p r event q effects r' hist hstep hs ih =>
    rw [List.flatMap_append, List.flatMap_singleton] at hrank
    have hpast := ih hrank.left
    rw [List.filterMap_append]
    rcases Naming.step_withRelay (ownedBy_of_history hist) hrank hist.service_eq hstep hs with
      ⟨hevent, hq, hr⟩ | ⟨e, hevent, hstep'⟩
    · have hnone : n.moment ⟨p.isClosed, r, event, effects, r'⟩ = none := by
        simp [Naming.moment, hevent]
      rw [List.filterMap_cons_none hnone, List.filterMap_nil, List.append_nil, hq, hr]
      exact hpast
    · have hsome : n.moment ⟨p.isClosed, r, event, effects, r'⟩ =
          some ⟨p.isClosed, n.relay r, e, n.effects (n.socket r.opened) effects, n.relay r'⟩ := by
        simp [Naming.moment, hevent]
      rw [List.filterMap_cons_some hsome, List.filterMap_nil]
      exact hpast.snoc hstep' rfl

end History

section Sights

variable {n : Naming} {owners : List SocketAddress} {closed closed' : Bool}
variable {r r' : DatagramRelay} {effects : List Effect}

theorem FlowTable.mem_socketsOf {t : FlowTable} {client : SocketAddress} {s : Nat} :
    s ∈ t.socketsOf client ↔ (client, s) ∈ t.ties := by
  simp only [socketsOf, List.mem_filterMap, mem_ties, Prod.exists, Option.ite_none_right_eq_some,
    Option.some.injEq]
  constructor
  · rintro ⟨c, f, hmem, rfl, rfl⟩
    exact ⟨f, hmem, rfl⟩
  · rintro ⟨f, hmem, rfl⟩
    exact ⟨client, f, hmem, rfl, rfl⟩

theorem socketsOf_table (t : FlowTable) :
    (n.table t).socketsOf n.address = (t.socketsOf n.client).map n.socket := by
  simp only [FlowTable.socketsOf, Naming.table, List.filterMap_filterMap, List.map_filterMap]
  apply List.filterMap_congr
  rintro ⟨client, f⟩ -
  by_cases hc : client = n.client
  · simp [hc, Naming.flow]
  · simp [hc, Naming.about_of_ne hc]

theorem owner_of_socketsOf (h : r.OwnedBy owners) {client : SocketAddress} {s : Nat}
    (hs : s ∈ r.table.socketsOf client) : owners[s]? = some client :=
  h.held (client, s) (mem_heldTies.mpr (.inl (FlowTable.mem_socketsOf.mp hs)))

theorem filter_map_not_mem {α β : Type} [DecidableEq α] [DecidableEq β] {f : α → β}
    {l l' : List α} (hinj : ∀ a ∈ l, ∀ b ∈ l', f a = f b → a = b) :
    (l.map f).filter (· ∉ l'.map f) = (l.filter (· ∉ l')).map f := by
  rw [List.filter_map]
  congr 1
  apply List.filter_congr
  intro a ha
  have hiff : f a ∈ l'.map f ↔ a ∈ l' := by
    constructor
    · intro hmem
      obtain ⟨b, hb, heq⟩ := List.mem_map.mp hmem
      rwa [hinj a ha b hb heq.symm]
    · exact List.mem_map_of_mem
  simp only [Function.comp_apply, hiff]

theorem client?_phase (loop : LoopPhase) :
    (n.phase loop).client? = some n.address ↔ loop.client? = some n.client := by
  cases loop with
  | looking client | sending client =>
    by_cases hc : client = n.client <;> simp [Naming.phase, LoopPhase.client?, hc]
  | _ => simp [Naming.phase, LoopPhase.client?]

theorem sights_effect (loop : LoopPhase) (port : SocketAddress) (effect : Effect) :
    (n.effect port effect).toList.flatMap (·.sights n.address (n.phase loop).client?) =
      (effect.sights n.client loop.client?).map (·.renumber n.socket) := by
  cases effect with
  | log notice =>
    simp only [Naming.effect]
    cases n.notice port notice <;> rfl
  | transmit socket payload =>
    simp only [Naming.effect, Effect.sights, client?_phase, Option.toList_some,
      List.flatMap_singleton]
    split <;> rfl
  | reply client payload =>
    by_cases hc : client = n.client
    · simp [Naming.effect, Effect.sights, hc, Sight.renumber]
    · simp [Naming.effect, Effect.sights, hc, Naming.about_of_ne hc]
  | _ => rfl

theorem sights_effects (loop : LoopPhase) (number : Nat) (effects : List Effect) :
    (n.effects number effects).flatMap (·.sights n.address (n.phase loop).client?) =
      (effects.flatMap (·.sights n.client loop.client?)).map (·.renumber n.socket) := by
  rw [Naming.effects, List.filterMap_eq_flatMap_toList, List.flatMap_assoc, List.map_flatMap]
  simp only [sights_effect]

theorem sights_of_event_none {event : DatagramRelay.Event} {turn : Turn DatagramRelay}
    (h : Transition closed r event turn) (hnone : n.event r event = none) :
    turn.effects.flatMap (·.sights n.client r.loop.client?) = [] := by
  apply List.flatMap_eq_nil_iff.mpr
  intro effect heffect
  cases h with
  | @sent client payload socket retried hloop =>
    have hc : client ≠ n.client := by
      rintro rfl
      simp [Naming.event, hloop, LoopPhase.client?] at hnone
    simp only [Turn.on_effects, List.mem_cons, List.not_mem_nil, or_false] at heffect
    rcases heffect with rfl | rfl
    · simp [Effect.sights, hloop, LoopPhase.client?, hc]
    · rfl
  | @replied socket t payload htask =>
    have hc : t.client ≠ n.client := by
      intro hc
      have hevent : n.taskEvent r socket (fun s => .replySend s (.ok ())) = none := hnone
      rw [Naming.taskEvent_self htask hc] at hevent
      cases hevent
    simp only [Turn.on_effects, List.mem_cons, List.not_mem_nil, or_false] at heffect
    rcases heffect with rfl | rfl
    · simp [Effect.sights, hc]
    · rfl
  | sweep | drained | advance | stopped | receiveFailed => cases hnone
  | opened _ _ _ hnotices =>
    split at hnotices
    · obtain ⟨a, -, rfl⟩ := hnotices
      cases List.mem_singleton.mp heffect
      rfl
    · subst hnotices
      cases heffect
  | received | found | refusedOnce | replyReceived | refreshed => cases heffect
  | _ =>
    cases List.mem_singleton.mp heffect
    rfl

theorem renamed_of_proxyEvent {event e : Proxy.Event} (h : n.proxyEvent r event = some e) :
    (e = event ∧ ∀ event', event ≠ .service (.datagram event')) ∨
      ∃ event' e', event = .service (.datagram event') ∧ e = .service (.datagram e') ∧
        n.Renamed r event' e' := by
  cases event with
  | run | close => exact .inl ⟨(Option.some.inj h).symm, nofun⟩
  | service event =>
    cases event with
    | stream | framed => exact .inl ⟨(Option.some.inj h).symm, nofun⟩
    | datagram event' =>
      obtain ⟨e', he', rfl⟩ := Option.map_eq_some_iff.mp h
      exact .inr ⟨event', e', rfl, rfl, Naming.renamed_of_event he'⟩

theorem isSweep_of_event {event e : Proxy.Event} (h : n.proxyEvent r event = some e) :
    Moment.isSweep ⟨closed, n.relay r, e, n.effects (n.socket r.opened) effects, n.relay r'⟩ =
      Moment.isSweep ⟨closed, r, event, effects, r'⟩ := by
  rcases renamed_of_proxyEvent h with ⟨rfl, -⟩ | ⟨event', e', rfl, rfl, hrenamed⟩
  · rfl
  · cases hrenamed <;> rfl

/-- A step of the client's part shows the client what the whole step shows it. -/
theorem sights_of_event {event e : Proxy.Event} (hrank : n.Ranks owners)
    (hbefore : ∀ s ∈ r.table.socketsOf n.client, owners[s]? = some n.client)
    (hafter : ∀ s ∈ r'.table.socketsOf n.client, owners[s]? = some n.client)
    (h : n.proxyEvent r event = some e) :
    Moment.sights ⟨closed, n.relay r, e, n.effects (n.socket r.opened) effects, n.relay r'⟩
        n.address =
      (Moment.sights ⟨closed, r, event, effects, r'⟩ n.client).map (·.renumber n.socket) := by
  have hopened : ((r'.table.socketsOf n.client).map n.socket).filter
        (· ∉ (r.table.socketsOf n.client).map n.socket) =
      ((r'.table.socketsOf n.client).filter (· ∉ r.table.socketsOf n.client)).map n.socket :=
    filter_map_not_mem fun a ha b hb => hrank.inj (hafter a ha) (hbefore b hb)
  have hlost : ((r.table.socketsOf n.client).map n.socket).filter
        (· ∉ (r'.table.socketsOf n.client).map n.socket) =
      ((r.table.socketsOf n.client).filter (· ∉ r'.table.socketsOf n.client)).map n.socket :=
    filter_map_not_mem fun a ha b hb => hrank.inj (hbefore a ha) (hafter b hb)
  have htable : ∀ r : DatagramRelay, (n.relay r).table.socketsOf n.address =
      (r.table.socketsOf n.client).map n.socket := fun r => socketsOf_table r.table
  simp only [Moment.sights, isSweep_of_event h, htable, hopened, hlost, List.map_append]
  congr 1
  · congr 1
    · simp [Sight.renumber]
    · split <;> simp [Sight.renumber]
  · exact sights_effects r.loop _ effects

theorem sights_of_proxyEvent_none {event : Proxy.Event} (hown : r.OwnedBy owners)
    (hafter : ∀ s ∈ r'.table.socketsOf n.client,
      (owners ++ Moment.owners ⟨closed, r, event, effects, r'⟩)[s]? = some n.client)
    (hbefore : ∀ s ∈ r.table.socketsOf n.client,
      (owners ++ Moment.owners ⟨closed, r, event, effects, r'⟩)[s]? = some n.client)
    (hrank : n.Ranks (owners ++ Moment.owners ⟨closed, r, event, effects, r'⟩))
    (hpass : Passage r closed event effects closed' r') (hnone : n.proxyEvent r event = none) :
    Moment.sights ⟨closed, r, event, effects, r'⟩ n.client = [] := by
  have hsub : ∀ {l l' : List Nat}, l.map n.socket = l'.map n.socket →
      (∀ a ∈ l, ∀ b ∈ l', n.socket a = n.socket b → a = b) → l.filter (· ∉ l') = [] := by
    intro l l' heq hinj
    apply List.filter_eq_nil_iff.mpr
    intro a ha
    have hmem : n.socket a ∈ l'.map n.socket := heq ▸ List.mem_map_of_mem ha
    obtain ⟨b, hb, hab⟩ := List.mem_map.mp hmem
    simpa [hinj a ha b hb hab.symm] using hb
  cases hpass with
  | refused | started | closed => cases hnone
  | finished ht hend =>
    cases ht with
    | drained => cases hnone
    | _ => cases hend
  | @moved event turn ht hend =>
    have hevent : n.event r event = none := Option.map_eq_none_iff.mp hnone
    rcases Naming.mirrors_of_transition hown hrank ht with ⟨-, hsame⟩ | ⟨e, he, -⟩
    · have htable : (turn.next.table.socketsOf n.client).map n.socket =
          (r.table.socketsOf n.client).map n.socket := by
        rw [← socketsOf_table, ← socketsOf_table]
        exact congrArg (fun r => r.table.socketsOf n.address) hsame
      have hopened := hsub htable fun a ha b hb => hrank.inj (hafter a ha) (hbefore b hb)
      have hlost := hsub htable.symm fun a ha b hb => hrank.inj (hbefore a ha) (hafter b hb)
      simp only [Moment.sights, hopened, hlost, sights_of_event_none ht hevent, List.map_nil,
        List.append_nil]
    · cases hevent.symm.trans he

end Sights

section View

variable {n : Naming} {frontend : Address} {backend : SocketAddress} {level : Level}
variable {timeout : Nat} {past : List (Moment DatagramRelay)} {p : Proxy} {r : DatagramRelay}

/-- Alone the client sees what it sees among others. -/
theorem view_alone
    (h : History .datagram (.ofDatagrams frontend backend level timeout) past p r)
    (hrank : n.Ranks (past.flatMap Moment.owners)) :
    view n.address (past.filterMap n.moment) =
      (view n.client past).map fun (time, sight) => (time, sight.renumber n.socket) := by
  have hall := h.datagram_induction (motive := fun past _ r =>
    OwnedBy (past.flatMap Moment.owners) r ∧ (n.Ranks (past.flatMap Moment.owners) →
      view n.address (past.filterMap n.moment) =
        (view n.client past).map fun (time, sight) => (time, sight.renumber n.socket)))
    ⟨⟨rfl, nofun⟩, fun _ => rfl⟩ ?_
  · exact hall.1.2 hrank
  · rintro past closed r event effects closed' r' ⟨hown, hview⟩ hpass
    rw [List.flatMap_append, List.flatMap_singleton]
    have hown' := hown.passage hpass
    refine ⟨hown', fun hrank => ?_⟩
    -- An expiry shows entries of the table before the step, a flow opened one after it.
    have hbefore : ∀ s ∈ r.table.socketsOf n.client, (past.flatMap Moment.owners ++
        Moment.owners ⟨closed, r, event, effects, r'⟩)[s]? = some n.client := by
      intro s hs
      have howner := owner_of_socketsOf hown hs
      rwa [List.getElem?_append_left (List.getElem?_eq_some_iff.mp howner).1]
    have hafter : ∀ s ∈ r'.table.socketsOf n.client, (past.flatMap Moment.owners ++
        Moment.owners ⟨closed, r, event, effects, r'⟩)[s]? = some n.client :=
      fun _ hs => owner_of_socketsOf hown' hs
    unfold view at hview ⊢
    rw [List.filterMap_append, List.flatMap_append, List.flatMap_append, List.map_append,
      hview hrank.left]
    congr 1
    cases hevent : n.proxyEvent r event with
    | none =>
      have hnone : n.moment ⟨closed, r, event, effects, r'⟩ = none := by
        simp [Naming.moment, hevent]
      have hsights := sights_of_proxyEvent_none hown hafter hbefore hrank hpass hevent
      rw [List.filterMap_cons_none hnone, List.flatMap_singleton, hsights]
      rfl
    | some e =>
      have hsome : n.moment ⟨closed, r, event, effects, r'⟩ =
          some ⟨closed, n.relay r, e, n.effects (n.socket r.opened) effects, n.relay r'⟩ := by
        simp [Naming.moment, hevent]
      rw [List.filterMap_cons_some hsome, List.filterMap_nil, List.flatMap_singleton,
        List.flatMap_singleton, sights_of_event hrank hbefore hafter hevent, List.map_map,
        List.map_map]
      rfl

theorem moment_of_event {m : Moment DatagramRelay} {e : Proxy.Event}
    (h : n.proxyEvent m.before m.event = some e) :
    n.moment m = some ⟨m.closed, n.relay m.before, e,
      n.effects (n.socket m.before.opened) m.effects, n.relay m.after⟩ := by
  simp [Naming.moment, h]

theorem arrivals_of_moment (m : Moment DatagramRelay) :
    (n.moment m).toList.flatMap Moment.arrivals =
      m.arrivals.filterMap fun (client, payload) => n.about client (n.address, payload) := by
  obtain ⟨closed, r, event, effects, r'⟩ := m
  cases hevent : n.proxyEvent r event with
  | some e =>
    rw [moment_of_event hevent, Option.toList_some, List.flatMap_singleton]
    rcases renamed_of_proxyEvent hevent with ⟨rfl, hother⟩ | ⟨event', e', rfl, rfl, hrenamed⟩
    · unfold Moment.arrivals
      split
      · rename_i heq
        exact absurd heq (hother _)
      · rfl
    · cases hrenamed with
      | receive => simp [Moment.arrivals]
      | _ => rfl
  | none =>
    have hnone : n.moment ⟨closed, r, event, effects, r'⟩ = none := by
      simp [Naming.moment, hevent]
    rw [hnone]
    unfold Moment.arrivals
    split
    · rename_i client payload heq
      cases heq
      have habout : n.about client (DatagramRelay.Event.receive (.ok (n.address, payload))) = none :=
        Option.map_eq_none_iff.mp hevent
      have hc : client ≠ n.client := by
        rintro rfl
        rw [n.about_self] at habout
        cases habout
      simp [Naming.about_of_ne hc]
    · rfl

theorem arrivals_alone (past : List (Moment DatagramRelay)) :
    (past.filterMap n.moment).flatMap Moment.arrivals =
      (past.flatMap Moment.arrivals).filterMap
        fun (client, payload) => n.about client (n.address, payload) := by
  rw [List.filterMap_eq_flatMap_toList, List.flatMap_assoc, List.filterMap_flatMap]
  simp only [arrivals_of_moment]

theorem owner_of_opening
    (h : History .datagram (.ofDatagrams frontend backend level timeout) past p r) :
    ∀ x ∈ past.flatMap Moment.openings, (past.flatMap Moment.owners)[x.2]? = some x.1 := by
  have hall := h.datagram_induction (motive := fun past _ r =>
    OwnedBy (past.flatMap Moment.owners) r ∧
      ∀ x ∈ past.flatMap Moment.openings, (past.flatMap Moment.owners)[x.2]? = some x.1)
    ⟨⟨rfl, nofun⟩, nofun⟩ ?_
  · exact hall.1.2
  · rintro past closed r event effects closed' r' ⟨hown, hpast⟩ hpass
    have hown' := hown.passage hpass
    rw [List.flatMap_append, List.flatMap_append, List.flatMap_singleton, List.flatMap_singleton]
    refine ⟨hown', fun x hx => ?_⟩
    rcases List.mem_append.mp hx with hx | hx
    · have howner := hpast x hx
      rwa [List.getElem?_append_left (List.getElem?_eq_some_iff.mp howner).1]
    · exact hown'.held x (mem_heldTies.mpr (.inl (List.mem_of_mem_filter hx)))

/-- What a step receives on a socket of the client is received by the client's part. -/
theorem replies_of_passage {owners : List SocketAddress} {closed closed' : Bool}
    {r' : DatagramRelay} {event : Proxy.Event} {effects : List Effect}
    (hown : ∀ s t, r.task? s = some t → owners[s]? = some t.client) (hrank : n.Ranks owners)
    (hpass : Passage r closed event effects closed' r') {s : Nat}
    (hs : owners[s]? = some n.client) :
    (n.moment ⟨closed, r, event, effects, r'⟩).toList.flatMap (Moment.replies · (n.socket s)) =
      Moment.replies ⟨closed, r, event, effects, r'⟩ s := by
  cases hevent : n.proxyEvent r event with
  | some e =>
    rw [moment_of_event hevent, Option.toList_some, List.flatMap_singleton]
    rcases renamed_of_proxyEvent hevent with ⟨rfl, hother⟩ | ⟨event', e', rfl, rfl, hrenamed⟩
    · unfold Moment.replies
      split
      · rename_i heq
        exact absurd heq (hother _)
      · rfl
    · cases hrenamed with
      | @replyReceive s' t result htask hc =>
        have hiff : n.socket s' = n.socket s ↔ s' = s :=
          ⟨hrank.inj (hc ▸ hown s' t htask) hs, fun heq => by rw [heq]⟩
        cases result with
        | ok payload => simp only [Moment.replies, hiff]
        | error e => rfl
      | _ => rfl
  | none =>
    have hnone : n.moment ⟨closed, r, event, effects, r'⟩ = none := by
      simp [Naming.moment, hevent]
    rw [hnone]
    unfold Moment.replies
    split
    · rename_i s' payload heq
      cases heq
      have htaskEvent : n.taskEvent r s' (fun s => .replyReceive s (.ok payload)) = none :=
        Option.map_eq_none_iff.mp hevent
      have hne : s' ≠ s := by
        rintro rfl
        obtain ⟨t, htask⟩ : ∃ t, r.task? s' = some t := by
          cases hpass with
          | moved ht => cases ht with | replyReceived htask => exact ⟨_, htask⟩
          | finished ht => cases ht with | replyReceived htask => exact ⟨_, htask⟩
        have hc : t.client = n.client := Option.some.inj ((hown s' t htask).symm.trans hs)
        rw [Naming.taskEvent_self htask hc] at htaskEvent
        cases htaskEvent
      rw [if_neg hne]
      rfl
    · rfl

theorem replies_alone
    (h : History .datagram (.ofDatagrams frontend backend level timeout) past p r)
    (hrank : n.Ranks (past.flatMap Moment.owners)) {s : Nat}
    (hs : (past.flatMap Moment.owners)[s]? = some n.client) :
    (past.filterMap n.moment).flatMap (Moment.replies · (n.socket s)) =
      past.flatMap (Moment.replies · s) := by
  have hall := h.datagram_induction (motive := fun past _ r =>
    OwnedBy (past.flatMap Moment.owners) r ∧
      ∀ more, n.Ranks (past.flatMap Moment.owners ++ more) →
        (past.flatMap Moment.owners ++ more)[s]? = some n.client →
        (past.filterMap n.moment).flatMap (Moment.replies · (n.socket s)) =
          past.flatMap (Moment.replies · s))
    ⟨⟨rfl, nofun⟩, fun _ _ _ => rfl⟩ ?_
  · exact hall.1.2 [] (by rwa [List.append_nil]) (by rwa [List.append_nil])
  · rintro past closed r event effects closed' r' ⟨hown, hpast⟩ hpass
    rw [List.flatMap_append, List.flatMap_singleton]
    refine ⟨hown.passage hpass, fun more hrank hs => ?_⟩
    rw [List.append_assoc] at hrank hs
    have hstep := replies_of_passage ?_ hrank hpass hs
    · rw [List.filterMap_append, List.flatMap_append, List.flatMap_append, hpast _ hrank hs,
        List.filterMap_eq_flatMap_toList, List.flatMap_singleton, List.flatMap_singleton, hstep]
    · intro s t htask
      have howner := Naming.owner_of_task? hown htask
      rwa [List.getElem?_append_left (List.getElem?_eq_some_iff.mp howner).1]

end View

/-- What a run says of a client is what is left of it for the client alone. -/
structure Undisturbed (made : Proxy) (past : List (Moment DatagramRelay)) (p : Proxy)
    (r : DatagramRelay) (n : Naming) : Prop where
  /-- the flows of the client keep their order -/
  in_order : ∀ s s', (n.client, s) ∈ past.flatMap Moment.openings →
    (n.client, s') ∈ past.flatMap Moment.openings → s < s' → n.socket s < n.socket s'
  /-- without the steps for others the run is a run of the same proxy -/
  alone : History .datagram made (past.filterMap n.moment) (p.withRelay (n.relay r)) (n.relay r)
  arrivals : (past.filterMap n.moment).flatMap Moment.arrivals =
    (past.flatMap Moment.arrivals).filterMap fun (c, payload) =>
      if c = n.client then some (n.address, payload) else none
  replies : ∀ s, (n.client, s) ∈ past.flatMap Moment.openings →
    (past.filterMap n.moment).flatMap (Moment.replies · (n.socket s)) =
      past.flatMap (Moment.replies · s)
  view : view n.address (past.filterMap n.moment) =
    (view n.client past).map fun (time, sight) => (time, sight.renumber n.socket)

/-- Noninterference of datagram clients. In every run, whatever the kernel answers and whoever
goes first, leave out all steps for other clients than one. What is left is a run of the same
proxy with the datagrams of this client and the replies on its flows, and with the same
changes of the clock, sweeps and closes; and the client sees the same in both, apart from the
numbers of flows and the addresses of sockets. -/
theorem noninterference_of_runAll {frontend : Address} {backend : SocketAddress} {level : Level}
    {timeout : Nat} {events : List Proxy.Event} {effects : List Effect} {p : Proxy}
    (hrun : (Proxy.ofDatagrams frontend backend level timeout).runAll events = some (p, effects))
    (client address : SocketAddress) (port : Nat → SocketAddress) :
    ∃ past r socket,
      History .datagram (.ofDatagrams frontend backend level timeout) past p r ∧
      past.map (·.event) = events ∧
      Undisturbed (.ofDatagrams frontend backend level timeout) past p r
        ⟨client, address, socket, port⟩ := by
  obtain ⟨past, r, hist, hevents, -⟩ := exists_history Service.isKind_datagram rfl hrun
  let n : Naming :=
    ⟨client, address, fun s => ((past.flatMap Moment.owners).take s).count client, port⟩
  have hrank : n.Ranks (past.flatMap Moment.owners) := fun _ _ => rfl
  have howner : ∀ s, (client, s) ∈ past.flatMap Moment.openings →
      (past.flatMap Moment.owners)[s]? = some n.client := fun s hs => owner_of_opening hist _ hs
  refine ⟨past, r, n.socket, hist, hevents, ?_, hist.alone hrank, arrivals_alone past, ?_,
    view_alone hist hrank⟩
  · intro s s' hs hs' hlt
    have hlt' := (List.getElem?_eq_some_iff.mp (howner s' hs')).1
    exact hrank.lt (howner s hs) hlt (by omega)
  · exact fun s hs => replies_alone hist hrank (howner s hs)

/-- Two clients take turns. Both flows expire, and the second client comes back. -/
theorem noninterference_of_return :
    let first : SocketAddress := .v4 .loopback 5001
    let second : SocketAddress := .v4 .loopback 5002
    let opening (port : UInt16) : Opening := ⟨.ok (), .ok (.v4 .loopback port)⟩
    let timeout : Nat := Duration.second
    let events : List DatagramRelay.Event :=
      [.sweep, .receive (.ok (first, [1])), .lookUp (opening 6000), .send (.ok ()),
        .receive (.ok (second, [2])), .replyReceive 0 (.ok [9]), .lookUp (opening 6001),
        .send (.error (.os 111)), .refresh 0, .send (.ok ()), .replyReceive 1 (.ok [8]),
        .replySend 0 (.ok ()), .refresh 1, .replySend 1 (.ok ()), .advance (2 * timeout), .sweep,
        .replyStop 1, .receive (.ok (second, [3])), .lookUp (opening 6002), .replyStop 0,
        .send (.ok ())]
    let made := Proxy.ofDatagrams (.datagram (.v4 .loopback 53)) (.v4 .loopback 5353) .info timeout
    ∃ p effects, made.runAll (.run :: ofRelay events) = some (p, effects) ∧
      ∃ past r socket, History .datagram made past p r ∧
        past.map (·.event) = .run :: ofRelay events ∧
        Undisturbed made past p r ⟨second, .v4 .loopback 7000, socket, fun _ => first⟩ := by
  intro first second opening timeout events made
  have hsome : (made.runAll (.run :: ofRelay events)).isSome := by decide +kernel
  obtain ⟨⟨p, effects⟩, hrun⟩ := Option.isSome_iff_exists.mp hsome
  exact ⟨p, effects, hrun, noninterference_of_runAll hrun second (.v4 .loopback 7000) fun _ => first⟩

end PortForward

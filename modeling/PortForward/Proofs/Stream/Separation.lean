import PortForward.Proofs.Stream.Account

/-!
# Connections of a stream proxy

A run of a stream proxy, taken apart into its connections. The steps that a run makes for one
client are the life of one relay, and whatever is dialed, passed on or released for a client is
so in a step of its own relay.
-/

namespace PortForward

open StreamRelay (Step Life Living)

/-- The client for whose relay something is done. -/
def Effect.client? : Effect → Option Nat
  | dial client | deliver client _ _ | endStream client _ | release client => some client
  | _ => none

namespace StreamService

def arrivals (m : Moment StreamService) : List Address :=
  match m.event with
  | .service (.stream (.accept (.ok peer))) => [peer]
  | _ => []

/-- The step that the relay of a client makes. -/
def stepsOf (client : Nat) (m : Moment StreamService) : List Step :=
  match m.event with
  | .service (.stream (.relay i event)) => if i = client then [⟨m.closed, event, m.effects⟩] else []
  | _ => []

/-- The connections of a service after a run. -/
structure Connected (past : List (Moment StreamService)) (s : StreamService) : Prop where
  accepted_eq : s.accepted = (past.flatMap arrivals).length
  roster : Roster Life .born (past.flatMap arrivals) (fun client => past.flatMap (stepsOf client))
    s.relay?
  keepsTo : ∀ m ∈ past, ∀ effect ∈ m.effects, ∀ client, effect.client? = some client →
    stepsOf client m ≠ []

variable {past : List (Moment StreamService)} {s s' : StreamService} {m : Moment StreamService}
variable {client : Nat} {peer : Address} {r : StreamRelay}

theorem connected_idle {backend : StreamBackend} : Connected [] (.idle backend) where
  accepted_eq := rfl
  roster := .empty
  keepsTo _ hm := absurd hm List.not_mem_nil

/-- A step that is none of a relay, and accepts nobody, leaves the connections as they are. -/
theorem Connected.of_eq (h : Connected past s) (haccepted : s'.accepted = s.accepted)
    (hrelays : s'.relays = s.relays) (harrivals : arrivals m = [])
    (hsteps : ∀ client, stepsOf client m = []) (hlog : ∀ effect ∈ m.effects, effect.client? = none) :
    Connected (past ++ [m]) s' := by
  have hrelay : s'.relay? = s.relay? := by
    funext client
    rw [relay?, relay?, hrelays]
  constructor
  case accepted_eq => simpa [harrivals] using haccepted.trans h.accepted_eq
  case roster => simpa [harrivals, hsteps, hrelay] using h.roster
  case keepsTo =>
    intro m' hm' effect heffect client hclient
    rcases List.mem_append.mp hm' with hold | hnew
    · exact h.keepsTo m' hold effect heffect client hclient
    · cases List.mem_singleton.mp hnew
      cases (hlog effect heffect).symm.trans hclient

theorem Connected.accept (h : Connected past s) {closed : Bool} (peer : Address) :
    let s' : StreamService :=
      { s with accepted := s.accepted + 1, relays := s.relays ++ [.born s.accepted peer] }
    let m : Moment StreamService := ⟨closed, s, .service (.stream (.accept (.ok peer))), [], s'⟩
    Connected (past ++ [m]) s' := by
  intro s' m
  have harrivals : arrivals m = [peer] := rfl
  have hsteps : ∀ client, stepsOf client m = [] := fun _ => rfl
  have hrelay : ∀ client, s'.relay? client =
      if client = (past.flatMap arrivals).length then some (.born client peer)
      else s.relay? client := by
    intro client
    have hnew : s.relay? s.accepted = none := h.roster.numbered _ (Nat.le_of_eq h.accepted_eq.symm)
    have hfind : s'.relay? client =
        if client = s.accepted then some (.born s.accepted peer) else s.relay? client :=
      find?_snoc hnew
    rw [hfind, ← h.accepted_eq]
    by_cases hclient : client = s.accepted
    · rw [if_pos hclient, if_pos hclient, hclient]
    · rw [if_neg hclient, if_neg hclient]
  constructor
  case accepted_eq => simp [s', h.accepted_eq, harrivals]
  case roster =>
    have hroster := h.roster.accept peer (fun _ => .accepted) hrelay
    simpa [harrivals, hsteps] using hroster
  case keepsTo =>
    intro m' hm' effect heffect
    rcases List.mem_append.mp hm' with hold | hnew
    · exact h.keepsTo m' hold effect heffect
    · cases List.mem_singleton.mp hnew
      cases heffect

/-- Whatever a relay does, it does for its own client. -/
theorem client_of_effect {closed : Bool} {event : StreamRelay.Event} {next : Option StreamRelay}
    {effects : List Effect} (ht : StreamRelay.Transition closed r event next effects)
    {effect : Effect} (heffect : effect ∈ effects) {client : Nat}
    (hclient : effect.client? = some client) : client = r.client := by
  have hhalf : ∀ {target h e h' more}, Half.Transition r.client target h e h' more →
      effect ∈ more → client = r.client := by
    intro target h e h' more ht hmem
    cases ht with
    | read | sourceEnded => cases hmem
    | wrote | wroteLast | shut =>
      cases List.mem_singleton.mp hmem
      exact (Option.some.inj hclient).symm
  cases ht with
  | announced =>
    cases List.mem_singleton.mp heffect
    cases hclient
  | dialed =>
    cases List.mem_singleton.mp heffect
    exact (Option.some.inj hclient).symm
  | connected => cases heffect
  | moved _ ht => exact hhalf ht heffect
  | completed _ ht =>
    rcases List.mem_append.mp heffect with hmem | hmem
    · exact hhalf ht hmem
    · simp only [List.mem_cons, List.not_mem_nil, or_false] at hmem
      rcases hmem with rfl | rfl
      · cases hclient
      · exact (Option.some.inj hclient).symm
  | failed | dropped =>
    simp only [List.mem_cons, List.not_mem_nil, or_false] at heffect
    rcases heffect with rfl | rfl
    · cases hclient
    · exact (Option.some.inj hclient).symm

theorem Connected.move (h : Connected past s) {closed : Bool} {event : StreamRelay.Event}
    {next : Option StreamRelay} {effects : List Effect} (hr : s.relay? client = some r)
    (ht : StreamRelay.Transition closed r event next effects) :
    let m : Moment StreamService :=
      ⟨closed, s, .service (.stream (.relay client event)), effects, s.replace client next⟩
    Connected (past ++ [m]) (s.replace client next) := by
  intro m
  have hclient := client_of_relay? hr
  have harrivals : arrivals m = [] := rfl
  have hsteps : ∀ other, stepsOf other m =
      if client = other then [⟨closed, event, effects⟩] else [] := fun _ => rfl
  have hnext : ∀ r', next = some r' → r'.client = client := fun r' hr' =>
    (ht.keeps hr').1.trans hclient
  constructor
  case accepted_eq =>
    rw [List.flatMap_append, List.flatMap_singleton, harrivals, List.append_nil]
    exact h.accepted_eq
  case roster =>
    have hgrow : ∀ other, (past ++ [m]).flatMap (stepsOf other) =
        past.flatMap (stepsOf other) ++ if client = other then [⟨closed, event, effects⟩] else [] := by
      intro other
      rw [List.flatMap_append, List.flatMap_singleton, hsteps]
    rw [List.flatMap_append, List.flatMap_singleton, harrivals, List.append_nil]
    exact h.roster.move hr (fun start before hlife => hlife.step ht) hgrow
      (relay?_replace_self hr hnext) fun other hne => relay?_replace_of_ne hne hnext
  case keepsTo =>
    intro m' hm' effect heffect i hi
    rcases List.mem_append.mp hm' with hold | hnew
    · exact h.keepsTo m' hold effect heffect i hi
    · cases List.mem_singleton.mp hnew
      rw [hsteps, if_pos (hclient.symm.trans (client_of_effect ht heffect hi).symm)]
      exact List.cons_ne_nil _ _

theorem connected_of_history {frontend : Address} {backend : StreamBackend} {p : Proxy}
    (h : History .stream (.bound frontend (.stream (.idle backend))) past p s) :
    Connected past s := by
  refine h.stream_induction connected_idle ?_
  intro past s closed event effects s' hconnected hpassage
  cases hpassage with
  | refused | closed | started | failed | stopped =>
    refine hconnected.of_eq rfl rfl rfl (fun _ => rfl) ?_
    simp [Effect.client?]
  | accepted => exact hconnected.accept _
  | moved hr ht => exact hconnected.move hr ht

section Own

theorem stepsOf_cases (client : Nat) (m : Moment StreamService) :
    (∃ event, m.event = .service (.stream (.relay client event)) ∧
      stepsOf client m = [⟨m.closed, event, m.effects⟩]) ∨
    (∀ event, m.event ≠ .service (.stream (.relay client event))) ∧ stepsOf client m = [] := by
  unfold stepsOf
  split
  · rename_i i event hevent
    by_cases hi : i = client
    · subst hi
      exact .inl ⟨event, hevent, if_pos rfl⟩
    · refine .inr ⟨?_, if_neg hi⟩
      intro event' hevent'
      cases hevent.symm.trans hevent'
      exact hi rfl
  · rename_i hnot
    exact .inr ⟨fun event hevent => hnot client event hevent, rfl⟩

theorem effects_of_stepsOf (h : stepsOf client m ≠ []) :
    (stepsOf client m).flatMap (·.effects) = m.effects := by
  rcases stepsOf_cases client m with ⟨event, -, hsteps⟩ | ⟨-, hsteps⟩
  · rw [hsteps, List.flatMap_singleton]
  · exact absurd hsteps h

/-- What is done for a client is done in its own steps. -/
theorem Connected.filter_eq (h : Connected past s) {own : Effect → Bool}
    (hown : ∀ effect, own effect → effect.client? = some client) :
    (past.flatMap (·.effects)).filter own =
      ((past.flatMap (stepsOf client)).flatMap (·.effects)).filter own := by
  apply filter_effects_eq
  · intro m hm hsteps effect heffect
    rw [Bool.eq_false_iff]
    intro howned
    exact h.keepsTo m hm effect heffect client (hown effect howned) hsteps
  · exact fun m _ => effects_of_stepsOf

theorem Connected.towards_eq (h : Connected past s) (target : Side) :
    towards client target (past.flatMap (·.effects)) =
      towards client target ((past.flatMap (stepsOf client)).flatMap (·.effects)) := by
  apply h.filter_eq
  intro effect htowards
  cases effect with
  | deliver | endStream =>
    simp only [Effect.isTowards, decide_eq_true_eq] at htowards
    rw [Effect.client?, htowards.1]
  | _ => cases htowards

theorem Connected.count_release_eq (h : Connected past s) (client : Nat) :
    (past.flatMap (·.effects)).count (.release client) =
      ((past.flatMap (stepsOf client)).flatMap (·.effects)).count (.release client) := by
  have hown : ∀ effect : Effect, effect == .release client → effect.client? = some client := by
    intro effect heq
    rw [eq_of_beq heq, Effect.client?]
  simp only [List.count, List.countP_eq_length_filter]
  rw [h.filter_eq hown]

end Own

end StreamService

end PortForward

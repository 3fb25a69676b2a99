import Mathlib.Data.List.Nodup
import PortForward.Address.Basic

/-!
# Numbered clients

The relays of a proxy that accepts clients, as a list in which each is found by the number of
its client. Clients are numbered in the order of their acceptance. The life of a relay starts
when its client is accepted and takes one step whenever a step is its own; this is all that
counts here, so that one bookkeeping serves relays of any kind.
-/

namespace PortForward

section Lookup

variable {ρ : Type} {key : ρ → Nat} {relays : List ρ} {client other : Nat} {next : Option ρ}

theorem find?_replace_of_ne (hne : other ≠ client) (hnext : ∀ r, next = some r → key r = client) :
    (relays.filterMap fun r => if key r = client then next else some r).find? (key · = other) =
      relays.find? (key · = other) := by
  induction relays with
  | nil => rfl
  | cons r relays ih =>
    by_cases hr : key r = client
    · have hother : ¬ key r = other := fun h => hne (h.symm.trans hr)
      rw [List.find?_cons_of_neg (by simpa using hother), ← ih]
      cases next with
      | none => simp [hr]
      | some r' =>
        have hr' : ¬ key r' = other := fun h => hne (h.symm.trans (hnext r' rfl))
        simp [hr, hr']
    · simp only [List.filterMap_cons, hr, if_false]
      by_cases hother : key r = other
      · simp [hother]
      · simpa [hother] using ih

theorem find?_replace_self {r : ρ} (h : relays.find? (key · = client) = some r)
    (hnext : ∀ r, next = some r → key r = client) :
    (relays.filterMap fun r => if key r = client then next else some r).find? (key · = client) =
      next := by
  cases next with
  | none =>
    apply List.find?_eq_none.mpr
    intro x hx
    obtain ⟨y, -, hy⟩ := List.mem_filterMap.mp hx
    split at hy
    · cases hy
    · cases hy
      simpa
  | some r' =>
    have hr' : key r' = client := hnext r' rfl
    induction relays with
    | nil => cases h
    | cons x relays ih =>
      by_cases hx : key x = client
      · simp [hx, hr']
      · rw [List.find?_cons_of_neg (by simpa using hx)] at h
        simpa [hx] using ih h

theorem find?_snoc {r : ρ} (hnew : relays.find? (key · = key r) = none) :
    (relays ++ [r]).find? (key · = client) =
      if client = key r then some r else relays.find? (key · = client) := by
  rw [List.find?_append]
  by_cases hclient : client = key r
  · rw [if_pos hclient, hclient, hnew, Option.none_or]
    simp
  · have hne : ¬ key r = client := fun h => hclient h.symm
    rw [if_neg hclient, List.find?_cons_of_neg (by simpa using hne), List.find?_nil, Option.or_none]

end Lookup

/-- How many steps relays can still take, where one relay can take so many. -/
def stepsLeft {ρ : Type} (toGo : ρ → Nat) : List ρ → Nat
  | [] => 0
  | r :: relays => toGo r + stepsLeft toGo relays

theorem stepsLeft_append {ρ : Type} (toGo : ρ → Nat) (relays more : List ρ) :
    stepsLeft toGo (relays ++ more) = stepsLeft toGo relays + stepsLeft toGo more := by
  induction relays with
  | nil => exact (Nat.zero_add _).symm
  | cons r relays ih => rw [List.cons_append, stepsLeft, stepsLeft, ih, Nat.add_assoc]

/-- No two relays have the same client, and each has one that was accepted. -/
structure Distinct {ρ : Type} (key : ρ → Nat) (accepted : Nat) (relays : List ρ) : Prop where
  nodup : (relays.map key).Nodup
  key_lt : ∀ r ∈ relays, key r < accepted

namespace Distinct

variable {ρ : Type} {key : ρ → Nat} {accepted client : Nat} {relays : List ρ} {r : ρ}
variable {next : Option ρ}

theorem empty : Distinct key accepted [] where
  nodup := List.nodup_nil
  key_lt := nofun

theorem snoc (h : Distinct key accepted relays) (hr : key r = accepted) :
    Distinct key (accepted + 1) (relays ++ [r]) := by
  constructor
  case nodup =>
    rw [List.map_append, List.nodup_append]
    refine ⟨h.nodup, List.pairwise_singleton .., ?_⟩
    intro i hi j hj
    obtain ⟨x, hx, rfl⟩ := List.mem_map.mp hi
    have hlt := h.key_lt x hx
    have hj : j = accepted := by simpa [hr] using hj
    omega
  case key_lt =>
    intro x hx
    rcases List.mem_append.mp hx with hx | hx
    · exact Nat.lt_succ_of_lt (h.key_lt x hx)
    · rw [List.mem_singleton.mp hx, hr]
      exact Nat.lt_succ_self _

theorem find?_of_mem (h : Distinct key accepted relays) (hr : r ∈ relays) :
    relays.find? (key · = key r) = some r := by
  have hfound : (relays.find? (key · = key r)).isSome := by
    rw [List.find?_isSome]
    exact ⟨r, hr, by simp⟩
  obtain ⟨x, hx⟩ := Option.isSome_iff_exists.mp hfound
  have hkey : key x = key r := by simpa using List.find?_some hx
  rw [hx, List.inj_on_of_nodup_map h.nodup (List.mem_of_find?_eq_some hx) hr hkey]

/-- To replace the relay of a client is to replace that relay and no other. -/
theorem replace_eq (h : Distinct key accepted relays)
    (hr : relays.find? (key · = client) = some r) :
    ∃ pre post, relays = pre ++ r :: post ∧ ∀ next : Option ρ,
      (relays.filterMap fun x => if key x = client then next else some x) =
        pre ++ next.toList ++ post := by
  obtain ⟨hclient, pre, post, rfl, hpre⟩ := List.find?_eq_some_iff_append.mp hr
  have hclient : key r = client := by simpa using hclient
  have hself : ∀ (l : List ρ) (next : Option ρ), (∀ x ∈ l, key x ≠ client) →
      l.filterMap (fun x => if key x = client then next else some x) = l := by
    intro l next hl
    exact (List.filterMap_congr fun x hx => if_neg (hl x hx)).trans List.filterMap_some
  have hpost : ∀ x ∈ post, key x ≠ client := by
    intro x hx heqx
    have hnodup := h.nodup
    rw [List.map_append, List.map_cons] at hnodup
    have htail := (List.nodup_append.mp hnodup).2.1
    rw [List.nodup_cons, hclient] at htail
    exact htail.1 (heqx ▸ List.mem_map_of_mem hx)
  refine ⟨pre, post, rfl, fun next => ?_⟩
  rw [List.filterMap_append, List.filterMap_cons, if_pos hclient,
    hself pre next (by simpa using hpre), hself post next hpost]
  cases next with
  | none => simp
  | some r' => simp

theorem replace (h : Distinct key accepted relays) (hr : relays.find? (key · = client) = some r)
    (hnext : ∀ r', next = some r' → key r' = key r) :
    Distinct key accepted (relays.filterMap fun x => if key x = client then next else some x) := by
  obtain ⟨pre, post, heq, hreplace⟩ := h.replace_eq hr
  have hkeys : (next.toList.map key).Sublist [key r] := by
    cases next with
    | none => exact List.nil_sublist _
    | some r' => simp [hnext]
  have hsublist : ((relays.filterMap fun x => if key x = client then next else some x).map
      key).Sublist (relays.map key) := by
    rw [hreplace, heq, List.map_append, List.map_append, List.map_append, List.append_assoc]
    exact (List.Sublist.refl _).append (hkeys.append (List.Sublist.refl _))
  constructor
  case nodup => exact h.nodup.sublist hsublist
  case key_lt =>
    intro x hx
    obtain ⟨y, hy, heqy⟩ := List.mem_map.mp (hsublist.subset (List.mem_map_of_mem hx))
    exact heqy ▸ h.key_lt y hy

/-- A relay that comes closer to its end brings the whole list closer to its end. -/
theorem stepsLeft_replace_lt (h : Distinct key accepted relays)
    (hr : relays.find? (key · = client) = some r) {toGo : ρ → Nat}
    (hlt : next.elim 0 toGo < toGo r) :
    stepsLeft toGo (relays.filterMap fun x => if key x = client then next else some x) <
      stepsLeft toGo relays := by
  obtain ⟨pre, post, heq, hreplace⟩ := h.replace_eq hr
  have hnext : stepsLeft toGo next.toList = next.elim 0 toGo := by
    cases next <;> rfl
  rw [hreplace, heq]
  simp only [stepsLeft_append, stepsLeft, hnext]
  omega

end Distinct

/-- The lives of the relays of all clients: of those that were accepted, and of the others, which
have none. A relay is born with the number and the address of its client. -/
structure Roster {ρ σ : Type} (Life : ρ → List σ → Option ρ → Prop) (born : Nat → Address → ρ)
    (peers : List Address) (steps : Nat → List σ) (relay? : Nat → Option ρ) : Prop where
  numbered : ∀ client, peers.length ≤ client → relay? client = none
  unborn : ∀ client, peers.length ≤ client → steps client = []
  life : ∀ client peer, peers[client]? = some peer →
    Life (born client peer) (steps client) (relay? client)

namespace Roster

variable {ρ σ : Type} {Life : ρ → List σ → Option ρ → Prop} {born : Nat → Address → ρ}
variable {peers : List Address} {steps steps' : Nat → List σ} {relay? relay?' : Nat → Option ρ}

theorem empty : Roster Life born [] (fun _ => []) (fun _ => none) where
  numbered _ _ := rfl
  unborn _ _ := rfl
  life _ _ h := nomatch h

theorem client_lt (h : Roster Life born peers steps relay?) {client : Nat} {r : ρ}
    (hr : relay? client = some r) : client < peers.length := by
  by_contra hle
  cases (h.numbered client (by omega)).symm.trans hr

theorem exists_peer (h : Roster Life born peers steps relay?) {client : Nat} {r : ρ}
    (hr : relay? client = some r) :
    ∃ peer, peers[client]? = some peer ∧ Life (born client peer) (steps client) (some r) := by
  have hpeer := List.getElem?_eq_getElem (h.client_lt hr)
  exact ⟨_, hpeer, hr ▸ h.life client _ hpeer⟩

theorem accept (h : Roster Life born peers steps relay?) (peer : Address)
    (hstart : ∀ r, Life r [] (some r))
    (hrelay : ∀ client, relay?' client =
      if client = peers.length then some (born client peer) else relay? client) :
    Roster Life born (peers ++ [peer]) steps relay?' := by
  constructor
  case numbered =>
    intro client hle
    rw [List.length_append, List.length_singleton] at hle
    rw [hrelay, if_neg (by omega)]
    exact h.numbered client (by omega)
  case unborn =>
    intro client hle
    rw [List.length_append, List.length_singleton] at hle
    exact h.unborn client (by omega)
  case life =>
    intro client peer' hpeer
    rw [hrelay]
    by_cases hclient : client = peers.length
    · rw [hclient, List.getElem?_concat_length] at hpeer
      cases hpeer
      rw [if_pos hclient, h.unborn client (by omega)]
      exact hstart _
    · rw [if_neg hclient]
      obtain ⟨hlt, -⟩ := List.getElem?_eq_some_iff.mp hpeer
      rw [List.length_append, List.length_singleton] at hlt
      rw [List.getElem?_append_left (by omega)] at hpeer
      exact h.life client peer' hpeer

/-- A step of one relay continues its life, and no other. -/
theorem move (h : Roster Life born peers steps relay?) {client : Nat} {r : ρ} {next : Option ρ}
    {step : σ} (hr : relay? client = some r)
    (hlife : ∀ start before, Life start before (some r) → Life start (before ++ [step]) next)
    (hsteps : ∀ other, steps' other =
      steps other ++ if client = other then [step] else [])
    (hself : relay?' client = next)
    (hother : ∀ other, other ≠ client → relay?' other = relay? other) :
    Roster Life born peers steps' relay?' := by
  have hlt := h.client_lt hr
  constructor
  case numbered =>
    intro other hle
    rw [hother other (by omega)]
    exact h.numbered other hle
  case unborn =>
    intro other hle
    rw [hsteps, if_neg (by omega), h.unborn other hle]
    rfl
  case life =>
    intro other peer hpeer
    have hold := h.life other peer hpeer
    by_cases hne : other = client
    · subst hne
      rw [hr] at hold
      rw [hsteps, if_pos rfl, hself]
      exact hlife _ _ hold
    · rw [hsteps, if_neg (Ne.symm hne), List.append_nil, hother other hne]
      exact hold

end Roster

end PortForward

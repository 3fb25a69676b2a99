import Mathlib.Data.List.Basic
import PortForward.Relay.Effect

/-!
# What others see of a run

The effects of a run as its surroundings see them: the datagrams on each backend socket, the
bytes for each client of a stream, and the log lines that report an error.
-/

namespace PortForward

def Effect.isTowards (client : Nat) (target : Side) : Effect → Bool
  | deliver i side _ | endStream i side => i = client ∧ side = target
  | _ => false

/-- What is passed on to one side of a client's relay. -/
def towards (client : Nat) (target : Side) (effects : List Effect) : List Effect :=
  effects.filter (·.isTowards client target)

/-- One side of a client's relay is given just these bytes, in some pieces, and then the end of
the stream if it has ended. -/
def Conveys (client : Nat) (target : Side) (effects : List Effect) (bytes : Bytes) (ended : Bool) :
    Prop :=
  ∃ pieces : List Bytes, pieces.flatten = bytes ∧ towards client target effects =
    pieces.map (.deliver client target) ++ if ended then [.endStream client target] else []

/-- The payloads that were sent to the backend on a socket. -/
def sentOn (socket : Nat) (effects : List Effect) : List Bytes :=
  effects.flatMap fun
    | .transmit s payload => if s = socket then [payload] else []
    | _ => []

/-- The datagrams that were sent to the backend, each with its socket. -/
def transmissions (effects : List Effect) : List (Nat × Bytes) :=
  effects.flatMap fun
    | .transmit socket payload => [(socket, payload)]
    | _ => []

def payloads (effects : List Effect) : List Bytes :=
  effects.flatMap fun
    | .transmit _ payload => [payload]
    | _ => []

/-- The bytes that were written to a client of a stream. -/
def writtenTo (client : Nat) (effects : List Effect) : Bytes :=
  effects.flatMap fun
    | .deliver i .client bytes => if i = client then bytes else []
    | _ => []

def errorLines (effects : List Effect) : List Notice :=
  effects.flatMap fun
    | .log notice => if notice.level = .error then [notice] else []
    | _ => []

variable {socket client : Nat}

@[simp] theorem transmissions_append (effects more : List Effect) :
    transmissions (effects ++ more) = transmissions effects ++ transmissions more :=
  List.flatMap_append

theorem transmissions_eq_nil {effects : List Effect}
    (h : ∀ effect ∈ effects, ∃ notice, effect = .log notice) : transmissions effects = [] := by
  apply List.flatMap_eq_nil_iff.mpr
  intro effect heffect
  obtain ⟨notice, rfl⟩ := h effect heffect
  rfl

theorem mem_transmissions {effects : List Effect} {payload : Bytes} :
    (socket, payload) ∈ transmissions effects ↔ .transmit socket payload ∈ effects := by
  constructor
  · intro h
    obtain ⟨effect, heffect, hmem⟩ := List.mem_flatMap.mp h
    cases effect with
    | transmit s bytes =>
      cases List.mem_singleton.mp hmem
      exact heffect
    | _ => exact absurd hmem List.not_mem_nil
  · exact fun h => List.mem_flatMap.mpr ⟨_, h, List.mem_singleton_self _⟩

theorem sentOn_eq_transmissions (effects : List Effect) :
    sentOn socket effects = ((transmissions effects).filter (·.1 = socket)).map Prod.snd := by
  induction effects with
  | nil => rfl
  | cons effect effects ih =>
    unfold sentOn transmissions at ih ⊢
    rw [List.flatMap_cons, List.flatMap_cons, List.filter_append, List.map_append, ← ih]
    congr 1
    cases effect with
    | transmit s payload => by_cases hs : s = socket <;> simp [hs]
    | _ => rfl

@[simp] theorem payloads_append (effects more : List Effect) :
    payloads (effects ++ more) = payloads effects ++ payloads more :=
  List.flatMap_append

@[simp] theorem writtenTo_append (effects more : List Effect) :
    writtenTo client (effects ++ more) = writtenTo client effects ++ writtenTo client more :=
  List.flatMap_append

@[simp] theorem errorLines_append (effects more : List Effect) :
    errorLines (effects ++ more) = errorLines effects ++ errorLines more :=
  List.flatMap_append

@[simp] theorem towards_append (target : Side) (effects more : List Effect) :
    towards client target (effects ++ more) =
      towards client target effects ++ towards client target more :=
  List.filter_append ..

namespace Conveys

variable {target : Side} {effects more : List Effect} {bytes : Bytes} {ended : Bool}

theorem nil : Conveys client target [] [] false := ⟨[], rfl, rfl⟩

theorem silent (h : Conveys client target effects bytes ended)
    (hmore : towards client target more = []) :
    Conveys client target (effects ++ more) bytes ended := by
  obtain ⟨pieces, hpieces, htowards⟩ := h
  exact ⟨pieces, hpieces, by rw [towards_append, hmore, List.append_nil, htowards]⟩

theorem deliver (h : Conveys client target effects bytes false) (piece : Bytes) :
    Conveys client target (effects ++ [.deliver client target piece]) (bytes ++ piece) false := by
  obtain ⟨pieces, rfl, htowards⟩ := h
  refine ⟨pieces ++ [piece], by simp, ?_⟩
  rw [towards_append, htowards]
  simp [towards, Effect.isTowards]

theorem finish (h : Conveys client target effects bytes false) :
    Conveys client target (effects ++ [.endStream client target]) bytes true := by
  obtain ⟨pieces, hpieces, htowards⟩ := h
  refine ⟨pieces, hpieces, ?_⟩
  rw [towards_append, htowards]
  simp [towards, Effect.isTowards]

theorem not_ended (h : Conveys client target effects bytes false) :
    .endStream client target ∉ effects := by
  obtain ⟨pieces, -, htowards⟩ := h
  intro hmem
  have hend : .endStream client target ∈ towards client target effects :=
    List.mem_filter.mpr ⟨hmem, by simp [Effect.isTowards]⟩
  rw [htowards] at hend
  simp at hend

/-- Only what goes towards that side counts. -/
theorem congr (h : Conveys client target effects bytes ended)
    (heq : towards client target more = towards client target effects) :
    Conveys client target more bytes ended := by
  obtain ⟨pieces, hpieces, htowards⟩ := h
  exact ⟨pieces, hpieces, heq.trans htowards⟩

end Conveys

theorem sentOn_flatMap {α : Type} (l : List α) (effects : α → List Effect) :
    sentOn socket (l.flatMap effects) = l.flatMap fun a => sentOn socket (effects a) :=
  List.flatMap_assoc

theorem payloads_flatMap {α : Type} (l : List α) (effects : α → List Effect) :
    payloads (l.flatMap effects) = l.flatMap fun a => payloads (effects a) :=
  List.flatMap_assoc

theorem writtenTo_flatMap {α : Type} (l : List α) (effects : α → List Effect) :
    writtenTo client (l.flatMap effects) = l.flatMap fun a => writtenTo client (effects a) :=
  List.flatMap_assoc

/-- What is done for one connection is done in its own steps. -/
theorem filter_effects_eq {α σ : Type} {l : List α} {effects : α → List Effect}
    {steps : α → List σ} {shown : σ → List Effect} {own : Effect → Bool}
    (hnone : ∀ a ∈ l, steps a = [] → ∀ effect ∈ effects a, own effect = false)
    (hsome : ∀ a ∈ l, steps a ≠ [] → (steps a).flatMap shown = effects a) :
    (l.flatMap effects).filter own = ((l.flatMap steps).flatMap shown).filter own := by
  rw [List.filter_flatMap, List.flatMap_assoc, List.filter_flatMap]
  apply List.flatMap_congr
  intro a ha
  by_cases hsteps : steps a = []
  · rw [hsteps, List.flatMap_nil, List.filter_nil, List.filter_eq_nil_iff]
    intro effect heffect
    simp [hnone a ha hsteps effect heffect]
  · rw [hsome a ha hsteps]

theorem sentOn_eq_payloads {effects : List Effect}
    (h : ∀ s payload, .transmit s payload ∈ effects → s = socket) :
    sentOn socket effects = payloads effects := by
  unfold sentOn payloads
  apply List.flatMap_congr
  intro effect heffect
  cases effect with
  | transmit s payload => exact if_pos (h s payload heffect)
  | _ => rfl

theorem sentOn_eq_nil {effects : List Effect}
    (h : ∀ s payload, .transmit s payload ∈ effects → s ≠ socket) : sentOn socket effects = [] := by
  apply List.flatMap_eq_nil_iff.mpr
  intro effect heffect
  cases effect with
  | transmit s payload => exact if_neg (h s payload heffect)
  | _ => rfl

theorem writtenTo_eq_nil {effects : List Effect}
    (h : ∀ i side bytes, .deliver i side bytes ∈ effects → i ≠ client) :
    writtenTo client effects = [] := by
  apply List.flatMap_eq_nil_iff.mpr
  intro effect heffect
  cases effect with
  | deliver i side bytes =>
    cases side with
    | client => exact if_neg (h i .client bytes heffect)
    | backend => rfl
  | _ => rfl

end PortForward

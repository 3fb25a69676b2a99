import PortForward.Frame.Basic

/-!
# Sequences of frames

The frames of a list of payloads one after the other, and all complete frames that a
decoder can yield from what it has been fed. A payload that is too large for a frame is
left out.
-/

namespace PortForward

def Frame.encodeAll : List Bytes → Bytes
  | [] => []
  | p :: ps =>
    match encode p with
    | .ok wire => wire ++ encodeAll ps
    | .error _ => encodeAll ps

namespace Decoder

/-- What a decoder still has to go through: its buffer and the length it waits for. -/
def size (d : Decoder) : Nat := d.buffer.length + if d.pending.isSome then 1 else 0

theorem size_le_of_takePayload {n : Nat} {buffer frame : Bytes} {d : Decoder}
    (h : takePayload n buffer = (some frame, d)) : d.size ≤ buffer.length := by
  unfold takePayload at h
  split at h
  · cases h
    simp only [size, List.length_drop, Option.isSome_none, Bool.false_eq_true, if_false]
    omega
  · cases h

theorem size_lt_of_next {d d' : Decoder} {frame : Bytes} (h : d.next = (.ok (some frame), d')) :
    d'.size < d.size := by
  unfold next at h
  split at h
  · rename_i hp
    simp only [Prod.mk.injEq, Except.ok.injEq] at h
    have hle := size_le_of_takePayload (Prod.ext h.1 h.2)
    simp only [size, hp, Option.isSome_some, if_true] at hle ⊢
    omega
  · rename_i hp hb
    split at h
    · simp only [Prod.mk.injEq, Except.ok.injEq] at h
      have hle := size_le_of_takePayload (Prod.ext h.1 h.2)
      simp only [size, hp, hb, List.length_cons] at hle ⊢
      omega
    · cases h
  · cases h

/-- All complete frames, the error that stopped the decoder if one did, and what is left. -/
def drain (d : Decoder) : List Bytes × Option FrameError × Decoder :=
  match _h : d.next with
  | (.ok (some frame), rest) =>
    let (frames, e, rest) := rest.drain
    (frame :: frames, e, rest)
  | (.ok none, rest) => ([], none, rest)
  | (.error e, rest) => ([], some e, rest)
termination_by d.size
decreasing_by exact size_lt_of_next ‹_›

/-- Feeds chunks one after the other and takes all complete frames after each, up to the
first error. -/
def drainChunks (d : Decoder) : List Bytes → List Bytes × Option FrameError × Decoder
  | [] => d.drain
  | chunk :: chunks =>
    match (d.feed chunk).drain with
    | (frames, some e, rest) => (frames, some e, rest)
    | (frames, none, rest) =>
      let (more, e, rest) := rest.drainChunks chunks
      (frames ++ more, e, rest)

end Decoder

end PortForward

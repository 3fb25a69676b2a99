import PortForward.Proofs.Frame.Chunking

/-!
# Where a stream of frames ends

A stream may end between two frames, inside a header or a payload, or at a header that
announces too much; every string of bytes ends in one of these places and in no other. A
decoder that is told of the end knows them all but one: it consumes a header as soon as both
bytes are there, and so it takes the end just after a header for one between two frames.
-/

namespace PortForward

/-- Where a stream of frames ends. -/
inductive StreamEnd
  | betweenFrames
  /-- after one byte of a header -/
  | insideHeader
  /-- after the header of a frame that is not empty -/
  | afterHeader
  | insidePayload
  /-- at a header that announces too much, whatever follows it -/
  | oversized
  deriving DecidableEq, Repr

/-- The error that a decoder makes of the end of the stream, if it makes one of it. -/
def StreamEnd.error? : StreamEnd → Option FrameError
  | betweenFrames | afterHeader => none
  | insideHeader | insidePayload => some .truncated
  | oversized => some .oversizedHeader

def StreamEnd.answer (place : StreamEnd) : DecoderAnswer := place.error?.elim (.ok none) .error

namespace Frame

/-- What there is behind the complete frames of a stream, for each place where it may end. -/
inductive StopsAt : Bytes → StreamEnd → Prop
  | betweenFrames : StopsAt [] .betweenFrames
  | insideHeader {lo} : StopsAt [lo] .insideHeader
  | afterHeader {lo hi} : 0 < announced lo hi → announced lo hi ≤ maxPayload →
      StopsAt [lo, hi] .afterHeader
  | insidePayload {lo hi b rest} : announced lo hi ≤ maxPayload →
      (b :: rest).length < announced lo hi → StopsAt (lo :: hi :: b :: rest) .insidePayload
  | oversized {lo hi rest} : maxPayload < announced lo hi → StopsAt (lo :: hi :: rest) .oversized

/-- The complete frames of a stream, and where it ends behind them. -/
def Ends (bytes : Bytes) (frames : List Bytes) (place : StreamEnd) : Prop :=
  ∃ rest, bytes = encodeAll frames ++ rest ∧ (∀ f ∈ frames, f.length ≤ maxPayload) ∧
    StopsAt rest place

variable {bytes rest : Bytes} {frames frames' : List Bytes} {place place' : StreamEnd}

theorem StopsAt.last (h : StopsAt rest place) : IsPartial rest ∨ IsOversized rest := by
  cases h with
  | betweenFrames => exact .inl (.inl Nat.zero_lt_two)
  | insideHeader => exact .inl (.inl Nat.one_lt_two)
  | afterHeader hpos hle => exact .inl (.inr ⟨_, _, _, rfl, hle, hpos⟩)
  | insidePayload hle hlt => exact .inl (.inr ⟨_, _, _, rfl, hle, hlt⟩)
  | oversized hlt => exact .inr ⟨_, _, _, rfl, hlt⟩

theorem StopsAt.unique (h : StopsAt rest place) (h' : StopsAt rest place') : place = place' := by
  cases h with
  | betweenFrames | insideHeader =>
    cases h'
    rfl
  | afterHeader | insidePayload =>
    cases h' with
    | oversized => omega
    | _ => rfl
  | oversized =>
    cases h' with
    | oversized => rfl
    | _ => omega

theorem IsPartial.stopsAt (h : IsPartial rest) : ∃ place, place ≠ .oversized ∧ StopsAt rest place ∧
    place.error? = if rest.length = 0 ∨ rest.length = 2 then none else some .truncated := by
  match rest, h with
  | [], _ => exact ⟨.betweenFrames, nofun, .betweenFrames, rfl⟩
  | [_], _ => exact ⟨.insideHeader, nofun, .insideHeader, rfl⟩
  | lo :: hi :: more, h =>
    obtain ⟨hle, hlt⟩ : announced lo hi ≤ maxPayload ∧ more.length < announced lo hi := by
      rcases h with hshort | ⟨_, _, _, heq, hle, hlt⟩
      · simp only [List.length_cons] at hshort
        omega
      · cases heq
        exact ⟨hle, hlt⟩
    cases more with
    | nil => exact ⟨.afterHeader, nofun, .afterHeader hlt hle, rfl⟩
    | cons b more =>
      refine ⟨.insidePayload, nofun, .insidePayload hle hlt, (if_neg ?_).symm⟩
      simp only [List.length_cons]
      omega

theorem IsOversized.stopsAt (h : IsOversized rest) : StopsAt rest .oversized := by
  obtain ⟨lo, hi, more, rfl, hlt⟩ := h
  exact .oversized hlt

/-- No error is made of the end between two frames, and of the end just after a header. -/
theorem StopsAt.error?_eq_none_iff (h : StopsAt rest place) : place.error? = none ↔
    rest = [] ∨ ∃ n, 0 < n ∧ n ≤ maxPayload ∧ rest = header n := by
  cases h with
  | betweenFrames => exact iff_of_true rfl (.inl rfl)
  | afterHeader hpos hle =>
    exact iff_of_true rfl (.inr ⟨_, hpos, hle, (header_announced _ _).symm⟩)
  | insideHeader | insidePayload =>
    refine iff_of_false nofun ?_
    rintro (hnil | ⟨n, -, -, hheader⟩)
    · cases hnil
    · cases hheader
  | oversized hlt =>
    refine iff_of_false nofun ?_
    rintro (hnil | ⟨n, -, hle, hheader⟩)
    · cases hnil
    · cases hheader
      rw [announced_header hle] at hlt
      omega

theorem Ends.splits (h : Ends bytes frames place) :
    ∃ rest, Splits bytes frames rest ∧ StopsAt rest place := by
  obtain ⟨rest, heq, hshort, hstops⟩ := h
  exact ⟨rest, ⟨heq, hshort, hstops.last⟩, hstops⟩

theorem Splits.ends (h : Splits bytes frames rest) (hstops : StopsAt rest place) :
    Ends bytes frames place := ⟨rest, h.eq, h.short, hstops⟩

/-- A stream ends in one place, behind one list of frames. -/
theorem Ends.unique (h : Ends bytes frames place) (h' : Ends bytes frames' place') :
    frames = frames' ∧ place = place' := by
  obtain ⟨rest, hsplits, hstops⟩ := h.splits
  obtain ⟨rest', hsplits', hstops'⟩ := h'.splits
  obtain ⟨hframes, hrest⟩ := hsplits.unique hsplits'
  subst hrest
  exact ⟨hframes, hstops.unique hstops'⟩

theorem Ends.error?_eq_none_iff (h : Ends bytes frames place) : place.error? = none ↔
    bytes = encodeAll frames ∨
      ∃ n, 0 < n ∧ n ≤ maxPayload ∧ bytes = encodeAll frames ++ header n := by
  obtain ⟨rest, rfl, -, hstops⟩ := h
  simp only [hstops.error?_eq_none_iff, List.append_right_eq_self, List.append_cancel_left_eq]

/-- What comes behind a header that announces too much makes no difference. -/
theorem Ends.append (h : Ends bytes frames .oversized) (more : Bytes) :
    Ends (bytes ++ more) frames .oversized := by
  obtain ⟨rest, rfl, hshort, hstops⟩ := h
  cases hstops with
  | oversized hlt =>
    exact ⟨_, List.append_assoc .., hshort, .oversized hlt⟩

end Frame

namespace Decoder

/-- What a decoder that has given all complete frames answers at the end of the stream. -/
theorem nextAtEnd_holding {rest : Bytes} {place : StreamEnd} (h : Frame.StopsAt rest place) :
    (holding rest).nextAtEnd.1 = place.answer := by
  cases h with
  | betweenFrames | insideHeader => rfl
  | @afterHeader lo hi hpos hle =>
    have htake : takePayload (Frame.announced lo hi) [] = (none, ⟨some _, []⟩) :=
      if_neg (Nat.not_le_of_lt hpos)
    rw [holding, if_pos hle, nextAtEnd, next_pending rfl, htake]
    rfl
  | @insidePayload lo hi b more hle hlt =>
    have htake : takePayload (Frame.announced lo hi) (b :: more) = (none, ⟨some _, b :: more⟩) :=
      if_neg (Nat.not_le_of_lt hlt)
    rw [holding, if_pos hle, nextAtEnd, next_pending rfl, htake]
    rfl
  | @oversized lo hi more hlt =>
    rw [holding, if_neg (Nat.not_le_of_lt hlt), IsStuck.nextAtEnd_eq ⟨rfl, lo, hi, more, rfl, hlt⟩]
    rfl

end Decoder

namespace Decoding

/-- In any chunks, a stream gives its complete frames, and the place where it ends says what the
decoder makes of its end. -/
theorem exists_end (chunks : List Bytes) :
    ∃ place, Frame.Ends chunks.flatten (ofChunks chunks).frames place ∧
      (ofChunks chunks).decoder.nextAtEnd.1 = place.answer := by
  have hfollows := follows_ofChunks chunks
  obtain ⟨place, hstops⟩ : ∃ place, Frame.StopsAt (ofChunks chunks).decoder.raw place := by
    rcases hfollows.splits.last with hpartial | hover
    · obtain ⟨place, -, hstops, -⟩ := hpartial.stopsAt
      exact ⟨place, hstops⟩
    · exact ⟨.oversized, hover.stopsAt⟩
  refine ⟨place, hfollows.splits.ends hstops, ?_⟩
  rw [hfollows.holding]
  exact Decoder.nextAtEnd_holding hstops

end Decoding

end PortForward

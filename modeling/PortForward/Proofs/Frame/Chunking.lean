import PortForward.Proofs.Frame.RoundTrip

/-!
# Frames however the bytes are cut

A decoder that is fed the same bytes ends up in the same state with the same frames behind it,
whatever chunks the bytes came in and whether they are well formed or not. The reason is that
a decoder which has given all it can is determined by the bytes it stands for. A header that
announces too much is final: no later byte gets a decoder past it.
-/

namespace PortForward

/-- A call on a decoder: more bytes, or an attempt at the next frame while more may come or
when no more will. -/
inductive DecoderCall
  | feed (bytes : Bytes)
  | next
  | nextAtEnd
  deriving DecidableEq, Repr

namespace DecoderCall

def bytes : DecoderCall → Bytes
  | feed bytes => bytes
  | next | nextAtEnd => []

def isAttempt : DecoderCall → Bool
  | feed _ => false
  | next | nextAtEnd => true

end DecoderCall

abbrev DecoderAnswer := Except FrameError (Option Bytes)

namespace Decoder

/-- The answer to a call, if the call asks for one, and the decoder after it. -/
def call (d : Decoder) : DecoderCall → Option DecoderAnswer × Decoder
  | .feed bytes => (none, d.feed bytes)
  | .next => (some d.next.1, d.next.2)
  | .nextAtEnd => (some d.nextAtEnd.1, d.nextAtEnd.2)

/-- The answers to calls made one after the other, and the decoder after them. -/
def callAll (d : Decoder) : List DecoderCall → List DecoderAnswer × Decoder
  | [] => ([], d)
  | c :: cs =>
    let (answer, d) := d.call c
    let (answers, d) := d.callAll cs
    (answer.toList ++ answers, d)

/-- The frames among some answers. -/
def framesOf (answers : List DecoderAnswer) : List Bytes :=
  answers.filterMap fun
    | .ok frame => frame
    | .error _ => none

/-- The decoder that is left with a rest in which there is no complete frame. -/
def holding (rest : Bytes) : Decoder :=
  match rest with
  | lo :: hi :: more =>
    if Frame.announced lo hi ≤ maxPayload then ⟨some (Frame.announced lo hi), more⟩
    else ⟨none, lo :: hi :: more⟩
  | short => ⟨none, short⟩

/-- The decoder is between frames and the next header announces too much. -/
def IsStuck (d : Decoder) : Prop :=
  d.pending = none ∧ Frame.IsOversized d.buffer

variable {d d' : Decoder} {frames : List Bytes} {e : Option FrameError}

/-! ## One call -/

theorem nextAtEnd_decoder (d : Decoder) : d.nextAtEnd.2 = d.next.2 := by
  unfold nextAtEnd
  split
  · rename_i heq
    rw [heq]
  · rfl

theorem framesOf_nextAtEnd (d : Decoder) : framesOf [d.nextAtEnd.1] = framesOf [d.next.1] := by
  unfold nextAtEnd
  split
  · rename_i heq
    rw [heq]
    split <;> rfl
  · rfl

theorem IsStuck.next_eq (h : d.IsStuck) : d.next = (.error .oversizedHeader, d) := by
  obtain ⟨hpending, lo, hi, rest, hbuffer, hlt⟩ := h
  rw [next_header hpending hbuffer, if_neg (by omega)]

theorem IsStuck.nextAtEnd_eq (h : d.IsStuck) : d.nextAtEnd = (.error .oversizedHeader, d) := by
  rw [nextAtEnd, h.next_eq]

theorem IsStuck.feed (h : d.IsStuck) (bytes : Bytes) : (d.feed bytes).IsStuck := by
  obtain ⟨hpending, lo, hi, rest, hbuffer, hlt⟩ := h
  exact ⟨hpending, lo, hi, rest ++ bytes, congrArg (· ++ bytes) hbuffer, hlt⟩

/-- What a decoder stands for grows by what it is fed, and falls by the frames that it gives. -/
theorem raw_next (hsound : d.Sound) :
    d.raw = Frame.encodeAll (framesOf [d.next.1]) ++ d.next.2.raw ∧ d.next.2.Sound ∧
      ∀ f ∈ framesOf [d.next.1], f.length ≤ maxPayload := by
  rcases hnext : d.next with ⟨_ | _ | f, d'⟩
  · obtain ⟨-, rfl, -⟩ := next_error hnext
    exact ⟨rfl, hsound, nofun⟩
  · obtain ⟨hraw, hsound', -, -⟩ := next_none hsound hnext
    exact ⟨hraw.symm, hsound', nofun⟩
  · obtain ⟨hle, hraw, hsound'⟩ := next_some hsound hnext
    refine ⟨?_, hsound', ?_⟩
    · rw [hraw]
      exact congrArg (· ++ d'.raw) (Frame.encodeAll_singleton hle).symm
    · intro f' hf'
      rw [List.mem_singleton.mp hf']
      exact hle

theorem raw_call (hsound : d.Sound) (c : DecoderCall) :
    d.raw ++ c.bytes = Frame.encodeAll (framesOf (d.call c).1.toList) ++ (d.call c).2.raw ∧
      (d.call c).2.Sound ∧ ∀ f ∈ framesOf (d.call c).1.toList, f.length ≤ maxPayload := by
  cases c with
  | feed bytes => exact ⟨(raw_feed d bytes).symm, hsound.feed bytes, nofun⟩
  | next =>
    simp only [DecoderCall.bytes, List.append_nil]
    exact raw_next hsound
  | nextAtEnd =>
    simp only [call, DecoderCall.bytes, List.append_nil, Option.toList_some, framesOf_nextAtEnd,
      nextAtEnd_decoder]
    exact raw_next hsound

theorem IsStuck.call_eq (h : d.IsStuck) (c : DecoderCall) :
    d.call c = (if c.isAttempt then some (.error .oversizedHeader) else none, d.feed c.bytes) ∧
      (d.feed c.bytes).IsStuck := by
  have hsame : d.feed [] = d := by
    rw [Decoder.feed, List.append_nil]
  cases c with
  | feed bytes => exact ⟨rfl, h.feed bytes⟩
  | next =>
    refine ⟨?_, h.feed []⟩
    rw [call, h.next_eq, DecoderCall.bytes, hsame]
    rfl
  | nextAtEnd =>
    refine ⟨?_, h.feed []⟩
    rw [call, h.nextAtEnd_eq, DecoderCall.bytes, hsame]
    rfl

/-! ## Calls one after the other -/

theorem framesOf_append (answers more : List DecoderAnswer) :
    framesOf (answers ++ more) = framesOf answers ++ framesOf more := List.filterMap_append

theorem callAll_cons (d : Decoder) (c : DecoderCall) (cs : List DecoderCall) :
    d.callAll (c :: cs) = ((d.call c).1.toList ++ ((d.call c).2.callAll cs).1,
      ((d.call c).2.callAll cs).2) := rfl

theorem raw_callAll (hsound : d.Sound) (calls : List DecoderCall) :
    d.raw ++ calls.flatMap (·.bytes) =
        Frame.encodeAll (framesOf (d.callAll calls).1) ++ (d.callAll calls).2.raw ∧
      ∀ f ∈ framesOf (d.callAll calls).1, f.length ≤ maxPayload := by
  induction calls generalizing d with
  | nil => exact ⟨List.append_nil _, nofun⟩
  | cons c cs ih =>
    obtain ⟨hraw, hsound', hshort⟩ := raw_call hsound c
    obtain ⟨hraws, hshorts⟩ := ih hsound'
    simp only [callAll_cons, framesOf_append, List.flatMap_cons]
    refine ⟨?_, ?_⟩
    · rw [← List.append_assoc, hraw, List.append_assoc, hraws, Frame.encodeAll_append,
        List.append_assoc]
    · intro f hf
      rcases List.mem_append.mp hf with hf | hf
      · exact hshort f hf
      · exact hshorts f hf

/-- A frame has at least its header. -/
theorem length_encodeAll (h : ∀ f ∈ frames, f.length ≤ maxPayload) :
    2 * frames.length ≤ (Frame.encodeAll frames).length := by
  induction frames with
  | nil => exact Nat.le_refl 0
  | cons f fs ih =>
    rw [Frame.encodeAll_cons (h f List.mem_cons_self), List.length_append, List.length_append,
      List.length_cons]
    have hrest := ih fun f' hf' => h f' (List.mem_cons_of_mem f hf')
    simp only [Frame.header, List.length_cons, List.length_nil]
    omega

/-- Not more than half as many frames come of any calls as there are bytes. -/
theorem length_framesOf_le (hsound : d.Sound) (calls : List DecoderCall) :
    2 * (framesOf (d.callAll calls).1).length ≤
      d.raw.length + (calls.flatMap (·.bytes)).length := by
  obtain ⟨hraw, hshort⟩ := raw_callAll hsound calls
  have hlength := congrArg List.length hraw
  rw [List.length_append, List.length_append] at hlength
  have hle := length_encodeAll hshort
  omega

theorem callAll_append (d : Decoder) (calls more : List DecoderCall) :
    d.callAll (calls ++ more) =
      ((d.callAll calls).1 ++ ((d.callAll calls).2.callAll more).1,
        ((d.callAll calls).2.callAll more).2) := by
  induction calls generalizing d with
  | nil => rfl
  | cons c cs ih => simp only [List.cons_append, callAll_cons, ih, List.append_assoc]

/-- Every attempt at a stuck decoder fails, and takes nothing from what it was fed. -/
theorem IsStuck.callAll_eq (h : d.IsStuck) (calls : List DecoderCall) :
    d.callAll calls =
      (List.replicate (calls.countP (·.isAttempt)) (.error .oversizedHeader),
        d.feed (calls.flatMap (·.bytes))) := by
  induction calls generalizing d with
  | nil => simp [callAll, Decoder.feed]
  | cons c cs ih =>
    obtain ⟨hcall, hstuck⟩ := h.call_eq c
    have hfeed : (d.feed c.bytes).feed (cs.flatMap (·.bytes)) =
        d.feed ((c :: cs).flatMap (·.bytes)) := by
      simp only [Decoder.feed, List.flatMap_cons, List.append_assoc]
    rw [callAll_cons, hcall, ih hstuck, hfeed, List.countP_cons]
    cases c.isAttempt with
    | false => rfl
    | true => rw [if_pos rfl, if_pos rfl, List.replicate_succ]; rfl

/-- Draining is attempts until one gives no frame. -/
theorem callAll_of_drain (h : d.drain = (frames, e, d')) :
    d.callAll (List.replicate (frames.length + 1) .next) =
      (frames.map (fun f => .ok (some f)) ++ [e.elim (.ok none) .error], d') := by
  induction d using drain.induct generalizing frames with
  | case1 d f next hnext _ _ _ _ ih =>
    rw [drain_of_some hnext] at h
    obtain ⟨hframes, hrest⟩ := Prod.mk.inj h
    subst hframes
    rw [List.length_cons, List.replicate_succ, callAll_cons, call, hnext, ih (Prod.ext rfl hrest)]
    rfl
  | case2 d next hnext =>
    rw [drain_of_none hnext] at h
    cases h
    simp [callAll, call, hnext]
  | case3 d e' next hnext =>
    rw [drain_of_error hnext] at h
    cases h
    simp [callAll, call, hnext]

/-! ## Chunks -/

theorem isStuck_of_error {error : FrameError} (h : d.next = (.error error, d')) : d.IsStuck := by
  obtain ⟨-, -, hover⟩ := next_error h
  cases hpending : d.pending with
  | none => exact ⟨hpending, raw_of_none hpending ▸ hover⟩
  | some n =>
    rw [next_pending hpending] at h
    cases h

theorem holding_of_none (hsound : d.Sound) (h : d.next = (.ok none, d)) : d = holding d.raw := by
  rcases d.shape with ⟨n, hpending⟩ | ⟨hpending, lo, hi, rest, hbuffer⟩ | ⟨hpending, hshort⟩
  · have hle := hsound n hpending
    rw [raw_of_some hpending]
    simp only [Frame.header, List.cons_append, List.nil_append, holding,
      Frame.announced_header hle, if_pos hle, ← hpending]
  · rw [next_header hpending hbuffer] at h
    split at h
    · simp only [Prod.mk.injEq, Except.ok.injEq] at h
      obtain ⟨-, hd⟩ := takePayload_none (Prod.ext h.1 h.2)
      rw [hd] at hpending
      cases hpending
    · cases h
  · rw [raw_of_none hpending]
    obtain ⟨pending, buffer⟩ := d
    cases hpending
    cases buffer with
    | nil => rfl
    | cons first rest =>
      have hrest : rest.length = 0 := by
        simp only [List.length_cons] at hshort
        omega
      rw [List.length_eq_zero_iff.mp hrest]
      rfl

theorem IsStuck.eq_holding (h : d.IsStuck) : d = holding d.raw := by
  obtain ⟨hpending, lo, hi, rest, hbuffer, hlt⟩ := h
  rw [raw_of_none hpending, hbuffer, holding, if_neg (by omega), ← hbuffer, ← hpending]

/-- A decoder that has been drained is known by the bytes that it stands for. -/
theorem holding_of_drain (hsound : d.Sound) (h : d.drain = (frames, e, d')) :
    d' = holding d'.raw := by
  induction d using drain.induct generalizing frames with
  | case1 d f next hnext _ _ _ _ ih =>
    obtain ⟨-, -, hsound'⟩ := next_some hsound hnext
    rw [drain_of_some hnext] at h
    obtain ⟨-, hrest⟩ := Prod.mk.inj h
    exact ih hsound' (Prod.ext rfl hrest)
  | case2 d next hnext =>
    rw [drain_of_none hnext] at h
    cases h
    obtain ⟨-, hsound', -, hagain⟩ := next_none hsound hnext
    exact holding_of_none hsound' hagain
  | case3 d e' next hnext =>
    rw [drain_of_error hnext] at h
    cases h
    obtain ⟨-, rfl, -⟩ := next_error hnext
    exact (isStuck_of_error hnext).eq_holding

end Decoder

theorem Frame.IsOversized.append {bytes : Bytes} (h : IsOversized bytes) (more : Bytes) :
    IsOversized (bytes ++ more) := by
  obtain ⟨lo, hi, rest, rfl, hlt⟩ := h
  exact ⟨lo, hi, rest ++ more, rfl, hlt⟩

/-- All that came of feeding chunks: the frames, the first error, and the decoder. -/
structure Decoding where
  frames : List Bytes
  error : Option FrameError
  decoder : Decoder
  deriving DecidableEq, Repr

namespace Decoding

def start : Decoding := ⟨[], none, .empty⟩

/-- Feeds a chunk and takes all complete frames. An error does not keep chunks from coming. -/
def take (r : Decoding) (chunk : Bytes) : Decoding :=
  let (frames, e, rest) := (r.decoder.feed chunk).drain
  ⟨r.frames ++ frames, r.error.or e, rest⟩

def ofChunks (chunks : List Bytes) : Decoding := chunks.foldl take start

open Decoder

/-- Where the decoder is after the bytes fed so far, and what came of them. -/
structure Follows (r : Decoding) (fed : Bytes) : Prop where
  splits : Frame.Splits fed r.frames r.decoder.raw
  sound : r.decoder.Sound
  holding : r.decoder = holding r.decoder.raw
  error : (r.error = none ∧ Frame.IsPartial r.decoder.raw) ∨
    (r.error = some .oversizedHeader ∧ Frame.IsOversized r.decoder.raw)

variable {r r' : Decoding} {fed : Bytes}

theorem follows_start : start.Follows [] where
  splits := ⟨rfl, nofun, .inl (.inl Nat.zero_lt_two)⟩
  sound := sound_empty
  holding := rfl
  error := .inl ⟨rfl, .inl Nat.zero_lt_two⟩

theorem Follows.take (h : r.Follows fed) (chunk : Bytes) :
    (r.take chunk).Follows (fed ++ chunk) := by
  rcases hdrain : (r.decoder.feed chunk).drain with ⟨frames, e, d⟩
  have htake : r.take chunk = ⟨r.frames ++ frames, r.error.or e, d⟩ := by
    rw [Decoding.take, hdrain]
  have hsound := h.sound.feed chunk
  obtain ⟨hsplits, hend⟩ := drain_splits hsound hdrain
  rw [raw_feed] at hsplits
  rw [htake]
  constructor
  case splits =>
    refine ⟨?_, ?_, hsplits.last⟩
    · rw [Frame.encodeAll_append, List.append_assoc, ← hsplits.eq, h.splits.eq, List.append_assoc]
    · intro f hf
      rcases List.mem_append.mp hf with hf | hf
      · exact h.splits.short f hf
      · exact hsplits.short f hf
  case sound => exact sound_of_drain hsound hdrain
  case holding => exact holding_of_drain hsound hdrain
  case error =>
    rcases h.error with ⟨hnone, -⟩ | ⟨hsome, hover⟩
    · rw [hnone]
      exact hend
    · -- Nothing comes of more bytes after a header that announces too much.
      have hstays := hover.append chunk
      have hnothing : Frame.Splits (r.decoder.raw ++ chunk) [] (r.decoder.raw ++ chunk) :=
        ⟨rfl, nofun, .inr hstays⟩
      obtain ⟨-, hrest⟩ := hsplits.unique hnothing
      rw [hsome, hrest]
      exact .inr ⟨rfl, hstays⟩

theorem follows_ofChunks (chunks : List Bytes) : (ofChunks chunks).Follows chunks.flatten := by
  have hfold : ∀ {r : Decoding} {fed : Bytes}, r.Follows fed →
      (chunks.foldl take r).Follows (fed ++ chunks.flatten) := by
    induction chunks with
    | nil => intro r fed h; simpa using h
    | cons chunk chunks ih =>
      intro r fed h
      rw [List.foldl_cons, List.flatten_cons, ← List.append_assoc]
      exact ih (h.take chunk)
  exact hfold follows_start

/-- The bytes alone say what comes of them. -/
theorem Follows.unique (h : r.Follows fed) (h' : r'.Follows fed) : r = r' := by
  obtain ⟨hframes, hraw⟩ := h.splits.unique h'.splits
  have hdecoder : r.decoder = r'.decoder := by
    rw [h.holding, h'.holding, hraw]
  have herror : r.error = r'.error := by
    rcases h.error with ⟨hnone, hpartial⟩ | ⟨hsome, hover⟩
    · rcases h'.error with ⟨hnone', -⟩ | ⟨-, hover'⟩
      · rw [hnone, hnone']
      · exact absurd (hraw ▸ hpartial) (not_partial_of_oversized hover')
    · rcases h'.error with ⟨-, hpartial'⟩ | ⟨hsome', -⟩
      · exact absurd hpartial' (not_partial_of_oversized (hraw ▸ hover))
      · rw [hsome, hsome']
  obtain ⟨frames, e, d⟩ := r
  obtain ⟨frames', e', d'⟩ := r'
  cases hframes
  cases herror
  cases hdecoder
  rfl

/-- One who stops feeding at the first error has the same frames and the same error. -/
theorem ofChunks_eq_drainChunks {chunks : List Bytes} {frames : List Bytes}
    {e : Option FrameError} {d : Decoder} (h : empty.drainChunks chunks = (frames, e, d)) :
    (ofChunks chunks).frames = frames ∧ (ofChunks chunks).error = e := by
  have hfollows := follows_ofChunks chunks
  obtain ⟨unfed, hsplits, hend⟩ := drainChunks_splits sound_empty h
  obtain ⟨hframes, hrest⟩ := hfollows.splits.unique hsplits
  refine ⟨hframes, ?_⟩
  rcases hfollows.error with ⟨hnone, hpartial⟩ | ⟨hsome, hover⟩
  · rcases hend with ⟨he, -⟩ | ⟨-, hover⟩
    · rw [hnone, he]
    · exact absurd (hrest ▸ hpartial) (not_partial_of_oversized hover)
  · rcases hend with ⟨-, rfl, hpartial⟩ | ⟨he, -⟩
    · rw [List.append_nil] at hrest
      exact absurd (hrest ▸ hpartial) (not_partial_of_oversized hover)
    · rw [hsome, he]

/-- What decoding comes to for two ways of cutting the same bytes, and what it never does. -/
structure Regular (chunks chunks' : List Bytes) : Prop where
  same : ofChunks chunks = ofChunks chunks'
  verdict : (ofChunks chunks).error = none ∨ (ofChunks chunks).error = some .oversizedHeader
  /-- Nothing changes for one who feeds no more after an error. -/
  stopped : ∃ d, empty.drainChunks chunks = ((ofChunks chunks).frames, (ofChunks chunks).error, d)
  /-- Frames before a header that announces too much are given, and the decoder stays there. -/
  malformed : ∀ frames lo hi rest, (∀ f ∈ frames, f.length ≤ maxPayload) →
    chunks.flatten = Frame.encodeAll frames ++ lo :: hi :: rest →
    maxPayload < Frame.announced lo hi →
    ofChunks chunks = ⟨frames, some .oversizedHeader, ⟨none, lo :: hi :: rest⟩⟩
  stable : ∀ lo hi rest calls, maxPayload < Frame.announced lo hi →
    (Decoder.mk none (lo :: hi :: rest)).callAll calls =
      (List.replicate (calls.countP (·.isAttempt)) (.error .oversizedHeader),
        ⟨none, lo :: hi :: (rest ++ calls.flatMap (·.bytes))⟩)
  message : FrameError.oversizedHeader.toIoError.message = "frame size too big"
  /-- After any calls, attempts give frames and then none, and in all not more than one frame
  for every two bytes. -/
  ends : ∀ calls, ∃ (frames : List Bytes) (last : DecoderAnswer),
    ((empty.callAll calls).2.callAll (List.replicate (frames.length + 1) .next)).1 =
      frames.map (fun f => .ok (some f)) ++ [last] ∧
    framesOf [last] = [] ∧
    2 * ((framesOf (empty.callAll calls).1).length + frames.length) ≤
      (calls.flatMap (·.bytes)).length

theorem length_framesOf_drain (calls : List DecoderCall) {frames : List Bytes}
    {e : Option FrameError} {d : Decoder}
    (h : (empty.callAll calls).2.drain = (frames, e, d)) :
    2 * ((framesOf (empty.callAll calls).1).length + frames.length) ≤
      (calls.flatMap (·.bytes)).length := by
  have hcalls := length_framesOf_le sound_empty
    (calls ++ List.replicate (frames.length + 1) .next)
  have hdrain := callAll_of_drain h
  have hframes : framesOf (frames.map fun f => .ok (some f)) = frames := by
    rw [framesOf, List.filterMap_map]
    exact List.filterMap_some
  have hbytes : (List.replicate (frames.length + 1) DecoderCall.next).flatMap (·.bytes) = [] := by
    simp [List.flatMap_replicate, DecoderCall.bytes]
  rw [callAll_append, hdrain, framesOf_append, framesOf_append, hframes, List.flatMap_append,
    hbytes, List.append_nil, List.length_append, List.length_append] at hcalls
  have hempty : empty.raw.length = 0 := rfl
  omega

/-- Two ways of cutting the same bytes make no difference, and malformed bytes are met in the
same place for good. -/
theorem regular_of_flatten (chunks chunks' : List Bytes) (hcut : chunks.flatten = chunks'.flatten) :
    Regular chunks chunks' := by
  have hfollows := follows_ofChunks chunks
  constructor
  case same => exact hfollows.unique (hcut ▸ follows_ofChunks chunks')
  case verdict =>
    rcases hfollows.error with ⟨hnone, -⟩ | ⟨hsome, -⟩
    · exact .inl hnone
    · exact .inr hsome
  case stopped =>
    rcases hchunks : empty.drainChunks chunks with ⟨frames, e, d⟩
    obtain ⟨hframes, herror⟩ := ofChunks_eq_drainChunks hchunks
    exact ⟨d, by rw [hframes, herror]⟩
  case malformed =>
    intro frames lo hi rest hshort hflatten hlt
    have hstuck : IsStuck ⟨none, lo :: hi :: rest⟩ := ⟨rfl, lo, hi, rest, rfl, hlt⟩
    have hexpected : Follows ⟨frames, some .oversizedHeader, ⟨none, lo :: hi :: rest⟩⟩
        chunks.flatten :=
      ⟨⟨hflatten, hshort, .inr hstuck.2⟩, nofun, hstuck.eq_holding, .inr ⟨rfl, hstuck.2⟩⟩
    exact hfollows.unique hexpected
  case stable =>
    intro lo hi rest calls hlt
    have hstuck : IsStuck ⟨none, lo :: hi :: rest⟩ := ⟨rfl, lo, hi, rest, rfl, hlt⟩
    exact hstuck.callAll_eq calls
  case message => rfl
  case ends =>
    intro calls
    rcases hdrain : (empty.callAll calls).2.drain with ⟨frames, e, d⟩
    refine ⟨frames, e.elim (.ok none) .error, ?_, ?_, length_framesOf_drain calls hdrain⟩
    · rw [callAll_of_drain hdrain]
    · cases e <;> rfl

/-- A frame, and a header that announces 65512 bytes, cut within both headers and not at all. -/
theorem regular_malformed :
    let chunks : List Bytes := [[1], [0, 7, 232], [], [255, 9]]
    let whole : List Bytes := [[1, 0, 7, 232, 255, 9]]
    chunks.flatten = whole.flatten ∧
      ofChunks chunks = ⟨[[7]], some .oversizedHeader, ⟨none, [232, 255, 9]⟩⟩ ∧
      ofChunks whole = ⟨[[7]], some .oversizedHeader, ⟨none, [232, 255, 9]⟩⟩ := by
  intro chunks whole
  have hcut : chunks.flatten = whole.flatten := rfl
  have h := regular_of_flatten chunks whole hcut
  have hcut := h.malformed [[7]] 232 255 [9] (by decide) rfl (by decide)
  exact ⟨rfl, hcut, h.same ▸ hcut⟩

end Decoding

end PortForward

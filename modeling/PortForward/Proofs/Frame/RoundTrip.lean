import PortForward.Frame.Duplex
import PortForward.Proofs.Frame.Splitting

/-!
# Frames there and back

What was framed comes back as it was, however the bytes are cut on their way; and bytes that
come apart into frames without a rest are those that framing the frames again would give. A
payload too large for a frame is refused and leaves no trace, so it is as if it had never
been there.
-/

namespace PortForward

namespace Frame

/-- The payloads that a frame can hold. -/
def fitting (payloads : List Bytes) : List Bytes := payloads.filter (·.length ≤ maxPayload)

theorem encode_of_lt {payload : Bytes} (h : maxPayload < payload.length) :
    encode payload = .error .oversizedPayload := if_neg (by omega)

theorem encodeAll_fitting (payloads : List Bytes) :
    encodeAll (fitting payloads) = encodeAll payloads := by
  induction payloads with
  | nil => rfl
  | cons p ps ih =>
    by_cases h : p.length ≤ maxPayload
    · rw [fitting, List.filter_cons_of_pos (by simpa using h), encodeAll_cons h, encodeAll_cons h]
      exact congrArg _ ih
    · rw [fitting, List.filter_cons_of_neg (by simpa using h), encodeAll,
        encode_of_lt (by omega)]
      exact ih

theorem not_oversized_nil : ¬ IsOversized [] := by
  rintro ⟨lo, hi, rest, heq, -⟩
  cases heq

/-- Frames one after the other have no rest. -/
theorem splits_encodeAll (payloads : List Bytes) :
    Splits (encodeAll payloads) (fitting payloads) [] where
  eq := by rw [encodeAll_fitting, List.append_nil]
  short f hf := by simpa using (List.mem_filter.mp hf).2
  last := .inl (.inl Nat.zero_lt_two)

end Frame

namespace Decoder

variable {d d' : Decoder} {frames : List Bytes} {e : Option FrameError}

/-- A decoder that stands for no bytes is one that nothing was fed to. -/
theorem eq_empty_of_raw (h : d.raw = []) : d = empty := by
  obtain ⟨pending, buffer⟩ := d
  cases pending with
  | none => exact congrArg (Decoder.mk none) h
  | some n => cases h

theorem sound_of_drain (hsound : d.Sound) (h : d.drain = (frames, e, d')) : d'.Sound := by
  induction d using drain.induct generalizing frames with
  | case1 d f next hnext _ _ _ _ ih =>
    obtain ⟨-, -, hsound'⟩ := next_some hsound hnext
    rw [drain_of_some hnext] at h
    obtain ⟨-, hrest⟩ := Prod.mk.inj h
    exact ih hsound' (Prod.ext rfl hrest)
  | case2 d next hnext =>
    rw [drain_of_none hnext] at h
    cases h
    exact (next_none hsound hnext).2.1
  | case3 d e' next hnext =>
    rw [drain_of_error hnext] at h
    cases h
    obtain ⟨-, rfl, -⟩ := next_error hnext
    exact hsound

/-- Chunks come apart as the bytes that they are cut from. After an error the chunks that
were not fed belong to the rest. -/
theorem drainChunks_splits {chunks : List Bytes} (hsound : d.Sound)
    (h : d.drainChunks chunks = (frames, e, d')) :
    ∃ unfed, Frame.Splits (d.raw ++ chunks.flatten) frames (d'.raw ++ unfed) ∧
      ((e = none ∧ unfed = [] ∧ Frame.IsPartial d'.raw) ∨
        (e = some .oversizedHeader ∧ Frame.IsOversized (d'.raw ++ unfed))) := by
  induction chunks generalizing d frames with
  | nil =>
    obtain ⟨hsplits, ⟨he, hpartial⟩ | ⟨he, hover⟩⟩ := drain_splits hsound h
    · exact ⟨[], by simpa using hsplits, .inl ⟨he, rfl, hpartial⟩⟩
    · exact ⟨[], by simpa using hsplits, .inr ⟨he, by simpa using hover⟩⟩
  | cons chunk chunks ih =>
    simp only [drainChunks] at h
    split at h
    · rename_i frames' e' rest hdrain
      cases h
      obtain ⟨hsplits, ⟨he, -⟩ | ⟨he, lo, hi, tail, hraw, hlt⟩⟩ :=
        drain_splits (hsound.feed chunk) hdrain
      · cases he
      · have hover : Frame.IsOversized (d'.raw ++ chunks.flatten) :=
          ⟨lo, hi, tail ++ chunks.flatten, by rw [hraw]; rfl, hlt⟩
        refine ⟨chunks.flatten, ⟨?_, hsplits.short, .inr hover⟩, .inr ⟨he, hover⟩⟩
        have heq := hsplits.eq
        rw [raw_feed] at heq
        rw [List.flatten_cons, ← List.append_assoc, heq, List.append_assoc]
    · rename_i early rest hdrain
      obtain ⟨hearly, -⟩ := drain_splits (hsound.feed chunk) hdrain
      obtain ⟨hframes, hend⟩ := Prod.mk.inj h
      obtain ⟨unfed, hlate, hcause⟩ :=
        ih (sound_of_drain (hsound.feed chunk) hdrain) (Prod.ext rfl hend)
      refine ⟨unfed, ⟨?_, ?_, hlate.last⟩, hcause⟩
      · have heq := hearly.eq
        rw [raw_feed] at heq
        rw [List.flatten_cons, ← List.append_assoc, heq, List.append_assoc, hlate.eq, ← hframes,
          Frame.encodeAll_append, List.append_assoc]
      · intro f hf
        rw [← hframes] at hf
        rcases List.mem_append.mp hf with hf | hf
        · exact hearly.short f hf
        · exact hlate.short f hf

/-- Bytes that come apart without a rest do so in any chunks. -/
theorem drainChunks_of_splits {chunks : List Bytes} (h : Frame.Splits chunks.flatten frames []) :
    empty.drainChunks chunks = (frames, none, empty) := by
  rcases hchunks : empty.drainChunks chunks with ⟨found, e, d'⟩
  obtain ⟨unfed, hsplits, hend⟩ := drainChunks_splits sound_empty hchunks
  obtain ⟨rfl, hrest⟩ := h.unique hsplits
  obtain ⟨hraw, hunfed⟩ := List.append_eq_nil_iff.mp hrest.symm
  rcases hend with ⟨rfl, -⟩ | ⟨-, hover⟩
  · rw [eq_empty_of_raw hraw]
  · rw [hraw, hunfed] at hover
    exact absurd hover Frame.not_oversized_nil

theorem flatten_of_drainChunks {chunks : List Bytes}
    (h : empty.drainChunks chunks = (frames, none, empty)) :
    (∀ f ∈ frames, f.length ≤ maxPayload) ∧ chunks.flatten = Frame.encodeAll frames := by
  obtain ⟨unfed, hsplits, ⟨-, rfl, -⟩ | ⟨he, -⟩⟩ := drainChunks_splits sound_empty h
  · refine ⟨hsplits.short, ?_⟩
    have heq : chunks.flatten = Frame.encodeAll frames ++ [] := hsplits.eq
    rw [heq, List.append_nil]
  · cases he

end Decoder

namespace Duplex

/-- Encodes payloads one after the other: what each was answered, and the codec after them. -/
def encodeAll (x : Duplex) : List Bytes → List (Except FrameError Bytes) × Duplex
  | [] => ([], x)
  | p :: ps =>
    let (answer, x) := x.encode p
    let (answers, x) := x.encodeAll ps
    (answer :: answers, x)

variable (x : Duplex)

theorem encode_of_le {p : Bytes} (h : p.length ≤ maxPayload) :
    x.encode p = (.ok (Frame.header p.length ++ p),
      { x with output := x.output ++ (Frame.header p.length ++ p) }) := by
  simp only [encode, Frame.encode_of_le h]

/-- A refused payload leaves everything as it was. -/
theorem encode_of_lt {p : Bytes} (h : maxPayload < p.length) :
    x.encode p = (.error .oversizedPayload, x) := by
  simp only [encode, Frame.encode_of_lt h]

theorem encodeAll_eq (payloads : List Bytes) :
    x.encodeAll payloads = (payloads.map Frame.encode,
      { x with output := x.output ++ Frame.encodeAll payloads }) := by
  induction payloads generalizing x with
  | nil => simp [encodeAll, Frame.encodeAll]
  | cons p ps ih =>
    by_cases h : p.length ≤ maxPayload
    · simp only [encodeAll, x.encode_of_le h, ih, List.map_cons, Frame.encode_of_le h,
        Frame.encodeAll, List.append_assoc]
    · have hlt : maxPayload < p.length := by omega
      simp only [encodeAll, x.encode_of_lt hlt, ih, List.map_cons, Frame.encode_of_lt hlt,
        Frame.encodeAll]

/-- Payloads are framed or refused, and what was framed is decoded to the same payloads, cut in
any chunks. Bytes that decode to frames without an error and without a rest are what those
frames are encoded to. -/
theorem roundTrip (payloads chunks : List Bytes)
    (hcut : chunks.flatten = (empty.encodeAll payloads).2.output) :
    (∀ (x : Duplex) (p : Bytes), p.length ≤ maxPayload →
      x.encode p = (.ok (Frame.header p.length ++ p),
        { x with output := x.output ++ (Frame.header p.length ++ p) })) ∧
    (∀ (x : Duplex) (p : Bytes), maxPayload < p.length →
      ∃ e : FrameError, x.encode p = (.error e, x) ∧ e.toIoError.kind = .invalidInput) ∧
    (empty.encodeAll payloads).1 = payloads.map Frame.encode ∧
    Decoder.empty.drainChunks chunks = (Frame.fitting payloads, none, .empty) ∧
    ∀ pieces frames : List Bytes, Decoder.empty.drainChunks pieces = (frames, none, .empty) →
      empty.encodeAll frames = (frames.map fun f => .ok (Frame.header f.length ++ f),
        { empty with output := pieces.flatten }) := by
  refine ⟨fun x p => x.encode_of_le, ?_, ?_, ?_, ?_⟩
  · intro x p h
    exact ⟨.oversizedPayload, x.encode_of_lt h, rfl⟩
  · rw [encodeAll_eq]
  · apply Decoder.drainChunks_of_splits
    rw [hcut, encodeAll_eq]
    exact Frame.splits_encodeAll payloads
  · intro pieces frames h
    obtain ⟨hshort, hflatten⟩ := Decoder.flatten_of_drainChunks h
    have hanswers : frames.map Frame.encode =
        frames.map fun f => .ok (Frame.header f.length ++ f) :=
      List.map_congr_left fun f hf => Frame.encode_of_le (hshort f hf)
    rw [encodeAll_eq, hanswers, hflatten]
    rfl

/-- A payload that is too large between an empty one and a short one, cut within both headers. -/
theorem roundTrip_cut_headers :
    let large : Bytes := List.replicate 65508 0
    let chunks : List Bytes := [[0], [0, 3], [0, 1], [2, 3]]
    (empty.encodeAll [[], large, [1, 2, 3]]).2.output = chunks.flatten ∧
      (∃ e : FrameError,
        empty.encode large = (.error e, empty) ∧ e.toIoError.kind = .invalidInput) ∧
      Decoder.empty.drainChunks chunks = ([[], [1, 2, 3]], none, .empty) ∧
      empty.encodeAll [[], [1, 2, 3]] =
        ([.ok [0, 0], .ok [3, 0, 1, 2, 3]], { empty with output := chunks.flatten }) := by
  intro large chunks
  have hlarge : maxPayload < large.length := by
    rw [List.length_replicate]
    decide
  clear_value large
  have hfitting : Frame.fitting [[], large, [1, 2, 3]] = [[], [1, 2, 3]] := by
    have hshort : 3 ≤ maxPayload := by decide
    simp [Frame.fitting, Nat.not_le.mpr hlarge, hshort]
  have hcut : chunks.flatten = (empty.encodeAll [[], large, [1, 2, 3]]).2.output := by
    rw [encodeAll_eq, ← Frame.encodeAll_fitting, hfitting]
    rfl
  obtain ⟨-, hrefused, -, hdecoded, hencoded⟩ := roundTrip [[], large, [1, 2, 3]] chunks hcut
  rw [hfitting] at hdecoded
  exact ⟨hcut.symm, hrefused empty large hlarge, hdecoded, hencoded chunks _ hdecoded⟩

end Duplex

end PortForward

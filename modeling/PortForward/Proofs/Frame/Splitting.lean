import PortForward.Frame.Sequence

/-!
# How a stream splits into frames

A stream of bytes is a sequence of complete frames and a rest that is none yet, or that
announces too much. There is one way to see a stream so. The decoder finds it, whatever it
has consumed already: what a decoder stands for is its buffer after the header that it is
holding, if it holds one.
-/

namespace PortForward

namespace Frame

/-- The beginning of a frame, or nothing. -/
def IsPartial (bytes : Bytes) : Prop :=
  bytes.length < 2 ∨ ∃ lo hi rest, bytes = lo :: hi :: rest ∧ announced lo hi ≤ maxPayload ∧
    rest.length < announced lo hi

/-- A header that announces too much, and what follows it. -/
def IsOversized (bytes : Bytes) : Prop :=
  ∃ lo hi rest, bytes = lo :: hi :: rest ∧ maxPayload < announced lo hi

/-- The complete frames of a stream, and the rest. -/
structure Splits (bytes : Bytes) (frames : List Bytes) (rest : Bytes) : Prop where
  eq : bytes = encodeAll frames ++ rest
  short : ∀ f ∈ frames, f.length ≤ maxPayload
  last : IsPartial rest ∨ IsOversized rest

theorem announced_header {n : Nat} (h : n ≤ maxPayload) :
    announced (UInt8.ofNat n) (UInt8.ofNat (n / 256)) = n := by
  unfold maxPayload at h
  simp only [announced, UInt8.toNat_ofNat']
  omega

theorem header_announced (lo hi : UInt8) : header (announced lo hi) = [lo, hi] := by
  have hlo : lo.toNat < 256 := lo.toNat_lt
  have hhi : hi.toNat < 256 := hi.toNat_lt
  have hfirst : UInt8.ofNat (announced lo hi) = lo := by
    apply UInt8.toNat_inj.mp
    simp only [announced, UInt8.toNat_ofNat']
    omega
  have hsecond : UInt8.ofNat (announced lo hi / 256) = hi := by
    apply UInt8.toNat_inj.mp
    simp only [announced, UInt8.toNat_ofNat']
    omega
  rw [header, hfirst, hsecond]

theorem encode_of_le {payload : Bytes} (h : payload.length ≤ maxPayload) :
    encode payload = .ok (header payload.length ++ payload) := if_pos h

theorem encodeAll_cons {f : Bytes} (h : f.length ≤ maxPayload) (fs : List Bytes) :
    encodeAll (f :: fs) = header f.length ++ f ++ encodeAll fs := by
  simp only [encodeAll, encode_of_le h]

theorem encodeAll_append (fs fs' : List Bytes) :
    encodeAll (fs ++ fs') = encodeAll fs ++ encodeAll fs' := by
  induction fs with
  | nil => rfl
  | cons f fs ih =>
    simp only [List.cons_append, encodeAll]
    cases encode f with
    | ok wire => rw [ih, List.append_assoc]
    | error e => exact ih

theorem encodeAll_singleton {f : Bytes} (h : f.length ≤ maxPayload) :
    encodeAll [f] = header f.length ++ f := by
  rw [encodeAll_cons h, encodeAll, List.append_nil]

theorem not_last_of_frame {f more : Bytes} (h : f.length ≤ maxPayload) :
    ¬ (IsPartial (header f.length ++ f ++ more) ∨ IsOversized (header f.length ++ f ++ more)) := by
  have hannounced := announced_header h
  rintro ((hshort | ⟨lo, hi, rest, heq, -, hlt⟩) | ⟨lo, hi, rest, heq, hlt⟩)
  · simp only [header, List.cons_append, List.nil_append, List.length_cons] at hshort
    omega
  · simp only [header, List.cons_append, List.nil_append, List.cons.injEq] at heq
    obtain ⟨rfl, rfl, rfl⟩ := heq
    rw [hannounced, List.length_append] at hlt
    omega
  · simp only [header, List.cons_append, List.nil_append, List.cons.injEq] at heq
    obtain ⟨rfl, rfl, rfl⟩ := heq
    omega

/-- There is one way to split a stream. -/
theorem Splits.unique {bytes : Bytes} {frames frames' : List Bytes} {rest rest' : Bytes}
    (h : Splits bytes frames rest) (h' : Splits bytes frames' rest') :
    frames = frames' ∧ rest = rest' := by
  induction frames generalizing bytes frames' with
  | nil =>
    cases frames' with
    | nil => exact ⟨rfl, h.eq.symm.trans h'.eq⟩
    | cons f fs =>
      have hf := h'.short f List.mem_cons_self
      have heq := h.eq.symm.trans h'.eq
      rw [encodeAll_cons hf, List.append_assoc] at heq
      have hrest : rest = header f.length ++ f ++ (encodeAll fs ++ rest') := heq
      exact absurd (hrest ▸ h.last) (not_last_of_frame hf)
  | cons f fs ih =>
    have hf := h.short f List.mem_cons_self
    cases frames' with
    | nil =>
      have heq := h'.eq.symm.trans h.eq
      rw [encodeAll_cons hf, List.append_assoc] at heq
      have hrest : rest' = header f.length ++ f ++ (encodeAll fs ++ rest) := heq
      exact absurd (hrest ▸ h'.last) (not_last_of_frame hf)
    | cons f' fs' =>
      have hf' := h'.short f' List.mem_cons_self
      have heq := h.eq.symm.trans h'.eq
      rw [encodeAll_cons hf, encodeAll_cons hf'] at heq
      simp only [header, List.cons_append, List.nil_append, List.append_assoc,
        List.cons.injEq] at heq
      obtain ⟨hlo, hhi, heq⟩ := heq
      -- Both streams begin with the same header, which tells the length of the first frame.
      have hlength : f.length = f'.length := by
        rw [← announced_header hf, ← announced_header hf', hlo, hhi]
      obtain ⟨rfl, htail⟩ := List.append_inj heq hlength
      obtain ⟨rfl, hrest⟩ := ih
        ⟨rfl, fun x hx => h.short x (List.mem_cons_of_mem f hx), h.last⟩
        ⟨htail, fun x hx => h'.short x (List.mem_cons_of_mem f hx), h'.last⟩
      exact ⟨rfl, hrest⟩

end Frame

namespace Decoder

/-- The bytes that a decoder stands for. -/
def raw (d : Decoder) : Bytes := d.pending.elim [] Frame.header ++ d.buffer

/-- The decoder waits for no more than a frame may hold. -/
def Sound (d : Decoder) : Prop := ∀ n, d.pending = some n → n ≤ maxPayload

variable {d d' : Decoder} {f : Bytes}

theorem sound_empty : empty.Sound := nofun

theorem Sound.feed (h : d.Sound) (bytes : Bytes) : (d.feed bytes).Sound := h

theorem raw_feed (d : Decoder) (bytes : Bytes) : (d.feed bytes).raw = d.raw ++ bytes := by
  simp [raw, Decoder.feed, List.append_assoc]

theorem raw_of_none (h : d.pending = none) : d.raw = d.buffer := by
  rw [raw, h]
  rfl

theorem raw_of_some {n : Nat} (h : d.pending = some n) : d.raw = Frame.header n ++ d.buffer := by
  rw [raw, h]
  rfl

theorem raw_of_header {lo hi : UInt8} {rest : Bytes} (h : d.pending = none)
    (hbuffer : d.buffer = lo :: hi :: rest) :
    d.raw = Frame.header (Frame.announced lo hi) ++ rest := by
  rw [raw_of_none h, hbuffer, Frame.header_announced]
  rfl

theorem takePayload_some {n : Nat} {buffer : Bytes} (h : takePayload n buffer = (some f, d')) :
    f.length = n ∧ buffer = f ++ d'.buffer ∧ d'.pending = none := by
  unfold takePayload at h
  split at h
  · cases h
    refine ⟨?_, (List.take_append_drop n buffer).symm, rfl⟩
    rw [List.length_take]
    omega
  · cases h

theorem takePayload_none {n : Nat} {buffer : Bytes} (h : takePayload n buffer = (none, d')) :
    buffer.length < n ∧ d' = ⟨some n, buffer⟩ := by
  unfold takePayload at h
  split at h
  · cases h
  · cases h
    exact ⟨by omega, rfl⟩

theorem next_pending {n : Nat} (h : d.pending = some n) :
    d.next = (.ok (takePayload n d.buffer).1, (takePayload n d.buffer).2) := by
  obtain ⟨pending, buffer⟩ := d
  cases h
  rfl

theorem next_header {lo hi : UInt8} {rest : Bytes} (h : d.pending = none)
    (hbuffer : d.buffer = lo :: hi :: rest) :
    d.next = if Frame.announced lo hi ≤ maxPayload then
        (.ok (takePayload (Frame.announced lo hi) rest).1,
          (takePayload (Frame.announced lo hi) rest).2)
      else (.error .oversizedHeader, d) := by
  obtain ⟨pending, buffer⟩ := d
  cases h
  cases hbuffer
  rfl

theorem next_short (h : d.pending = none) (hbuffer : d.buffer.length < 2) :
    d.next = (.ok none, d) := by
  obtain ⟨pending, buffer⟩ := d
  cases h
  match buffer, hbuffer with
  | [], _ => rfl
  | [_], _ => rfl

/-- A decoder waits for a payload, has a header in front of it, or waits for a header. -/
theorem shape (d : Decoder) :
    (∃ n, d.pending = some n) ∨
      (d.pending = none ∧ ∃ lo hi rest, d.buffer = lo :: hi :: rest) ∨
      (d.pending = none ∧ d.buffer.length < 2) := by
  obtain ⟨pending, buffer⟩ := d
  cases pending with
  | some n => exact .inl ⟨n, rfl⟩
  | none =>
    match buffer with
    | [] => exact .inr (.inr ⟨rfl, Nat.zero_lt_two⟩)
    | [_] => exact .inr (.inr ⟨rfl, Nat.one_lt_two⟩)
    | lo :: hi :: rest => exact .inr (.inl ⟨rfl, lo, hi, rest, rfl⟩)

theorem next_some (hsound : d.Sound) (h : d.next = (.ok (some f), d')) :
    f.length ≤ maxPayload ∧ d.raw = Frame.header f.length ++ f ++ d'.raw ∧ d'.Sound := by
  have hnil : d'.pending = none → d'.Sound := fun hnone m hm => by
    rw [hnone] at hm
    cases hm
  rcases d.shape with ⟨n, hpending⟩ | ⟨hpending, lo, hi, rest, hbuffer⟩ | ⟨hpending, hshort⟩
  · rw [next_pending hpending] at h
    simp only [Prod.mk.injEq, Except.ok.injEq] at h
    obtain ⟨hlength, htake, hnone⟩ := takePayload_some (Prod.ext h.1 h.2)
    refine ⟨hlength ▸ hsound n hpending, ?_, hnil hnone⟩
    rw [raw_of_some hpending, raw_of_none hnone, hlength, htake, List.append_assoc]
  · rw [next_header hpending hbuffer] at h
    split at h
    · rename_i hle
      simp only [Prod.mk.injEq, Except.ok.injEq] at h
      obtain ⟨hlength, htake, hnone⟩ := takePayload_some (Prod.ext h.1 h.2)
      refine ⟨hlength ▸ hle, ?_, hnil hnone⟩
      rw [raw_of_header hpending hbuffer, raw_of_none hnone, hlength, htake, List.append_assoc]
    · cases h
  · rw [next_short hpending hshort] at h
    cases h

/-- Where no frame is complete the decoder stands for what it stood for, and has no more. -/
theorem next_none (hsound : d.Sound) (h : d.next = (.ok none, d')) :
    d'.raw = d.raw ∧ d'.Sound ∧ Frame.IsPartial d.raw ∧ d'.next = (.ok none, d') := by
  have hrest : ∀ {lo hi : UInt8} {rest : Bytes}, Frame.announced lo hi ≤ maxPayload →
      rest.length < Frame.announced lo hi →
      Frame.IsPartial (Frame.header (Frame.announced lo hi) ++ rest) := by
    intro lo hi rest hle hlt
    rw [Frame.header_announced]
    exact .inr ⟨lo, hi, rest, rfl, hle, hlt⟩
  have hagain : ∀ {n : Nat} {buffer : Bytes}, buffer.length < n →
      (Decoder.mk (some n) buffer).next = (.ok none, ⟨some n, buffer⟩) := by
    intro n buffer hlt
    have htake : takePayload n buffer = (none, ⟨some n, buffer⟩) := if_neg (by omega)
    rw [next_pending rfl, htake]
  rcases d.shape with ⟨n, hpending⟩ | ⟨hpending, lo, hi, rest, hbuffer⟩ | ⟨hpending, hshort⟩
  · rw [next_pending hpending] at h
    simp only [Prod.mk.injEq, Except.ok.injEq] at h
    obtain ⟨hlt, rfl⟩ := takePayload_none (Prod.ext h.1 h.2)
    have hle := hsound n hpending
    refine ⟨(raw_of_some hpending).symm, fun m hm => by cases hm; exact hle, ?_, hagain hlt⟩
    have hn := Frame.announced_header hle
    rw [raw_of_some hpending, ← hn]
    rw [← hn] at hle hlt
    exact hrest hle hlt
  · rw [next_header hpending hbuffer] at h
    split at h
    · rename_i hle
      simp only [Prod.mk.injEq, Except.ok.injEq] at h
      obtain ⟨hlt, rfl⟩ := takePayload_none (Prod.ext h.1 h.2)
      rw [raw_of_header hpending hbuffer]
      exact ⟨rfl, fun m hm => by cases hm; exact hle, hrest hle hlt, hagain hlt⟩
    · cases h
  · have hsame := next_short hpending hshort
    rw [hsame] at h
    cases h
    rw [raw_of_none hpending]
    exact ⟨rfl, hsound, .inl hshort, hsame⟩

/-- A decoder that has no more frame to give has nothing in its buffer between two frames, and
just after a header. -/
theorem buffer_eq_nil_iff (h : d.next = (.ok none, d)) :
    d.buffer = [] ↔ d.raw.length = 0 ∨ d.raw.length = 2 := by
  rcases d.shape with ⟨n, hpending⟩ | ⟨hpending, lo, hi, rest, hbuffer⟩ | ⟨hpending, hshort⟩
  · rw [raw_of_some hpending, List.length_append, ← List.length_eq_zero_iff]
    simp only [Frame.header, List.length_cons, List.length_nil]
    omega
  · rw [next_header hpending hbuffer] at h
    split at h
    · simp only [Prod.mk.injEq, Except.ok.injEq] at h
      obtain ⟨-, hd⟩ := takePayload_none (Prod.ext h.1 h.2)
      rw [hd] at hpending
      cases hpending
    · cases h
  · rw [raw_of_none hpending, ← List.length_eq_zero_iff]
    omega

/-- The decoder fails at an oversized header, and stays there. -/
theorem next_error {e : FrameError} (h : d.next = (.error e, d')) :
    e = .oversizedHeader ∧ d' = d ∧ Frame.IsOversized d.raw := by
  rcases d.shape with ⟨n, hpending⟩ | ⟨hpending, lo, hi, rest, hbuffer⟩ | ⟨hpending, hshort⟩
  · rw [next_pending hpending] at h
    cases h
  · rw [next_header hpending hbuffer] at h
    split at h
    · cases h
    · cases h
      refine ⟨rfl, rfl, lo, hi, rest, ?_, by omega⟩
      rw [raw_of_none hpending, hbuffer]
  · rw [next_short hpending hshort] at h
    cases h

theorem drain_of_some (h : d.next = (.ok (some f), d')) :
    d.drain = (f :: d'.drain.1, d'.drain.2) := by
  rw [drain]
  split
  · rename_i heq
    cases h.symm.trans heq
    rfl
  · rename_i heq
    cases h.symm.trans heq
  · rename_i heq
    cases h.symm.trans heq

theorem drain_of_none (h : d.next = (.ok none, d')) : d.drain = ([], none, d') := by
  rw [drain]
  split
  · rename_i heq
    cases h.symm.trans heq
  · rename_i heq
    cases h.symm.trans heq
    rfl
  · rename_i heq
    cases h.symm.trans heq

theorem drain_of_error {e : FrameError} (h : d.next = (.error e, d')) :
    d.drain = ([], some e, d') := by
  rw [drain]
  split
  · rename_i heq
    cases h.symm.trans heq
  · rename_i heq
    cases h.symm.trans heq
  · rename_i heq
    cases h.symm.trans heq
    rfl

theorem drain_splits {frames : List Bytes} {e : Option FrameError} (hsound : d.Sound)
    (h : d.drain = (frames, e, d')) :
    Frame.Splits d.raw frames d'.raw ∧
      ((e = none ∧ Frame.IsPartial d'.raw) ∨
        (e = some .oversizedHeader ∧ Frame.IsOversized d'.raw)) := by
  induction d using drain.induct generalizing frames with
  | case1 d f next hnext _ _ _ _ ih =>
    obtain ⟨hle, hraw, hsound'⟩ := next_some hsound hnext
    rw [drain_of_some hnext] at h
    obtain ⟨hframes, hrest⟩ := Prod.mk.inj h
    subst hframes
    obtain ⟨hsplits, hend⟩ := ih hsound' (Prod.ext rfl hrest)
    refine ⟨⟨?_, ?_, hsplits.last⟩, hend⟩
    · rw [hraw, hsplits.eq, Frame.encodeAll_cons hle, ← List.append_assoc]
    · intro x hx
      rcases List.mem_cons.mp hx with rfl | hx
      · exact hle
      · exact hsplits.short x hx
  | case2 d next hnext =>
    obtain ⟨hraw, -, hpartial, -⟩ := next_none hsound hnext
    rw [drain_of_none hnext] at h
    cases h
    rw [hraw]
    exact ⟨⟨rfl, nofun, .inl hpartial⟩, .inl ⟨rfl, hpartial⟩⟩
  | case3 d e' next hnext =>
    obtain ⟨rfl, rfl, hover⟩ := next_error hnext
    rw [drain_of_error hnext] at h
    cases h
    exact ⟨⟨rfl, nofun, .inr hover⟩, .inr ⟨rfl, hover⟩⟩

theorem not_partial_of_oversized {bytes : Bytes} (h : Frame.IsOversized bytes) :
    ¬ Frame.IsPartial bytes := by
  obtain ⟨lo, hi, rest, rfl, hlt⟩ := h
  rintro (hshort | ⟨lo', hi', rest', heq, hle, -⟩)
  · simp only [List.length_cons] at hshort
    omega
  · cases heq
    omega

theorem drain_stuck_iff (hsound : d.Sound) :
    d.drain.2.1 = some .oversizedHeader ↔ Frame.IsOversized d.drain.2.2.raw := by
  obtain ⟨-, ⟨hnone, hpartial⟩ | ⟨hsome, hover⟩⟩ :=
    drain_splits hsound (Prod.ext rfl (Prod.ext rfl rfl))
  · refine iff_of_false (by rw [hnone]; nofun) ?_
    exact fun hover => not_partial_of_oversized hover hpartial
  · exact iff_of_true hsome hover

/-- A decoder that has given some frames of a stream, and stands for the rest of it, has just
those frames still to give that the whole stream has beyond them. -/
theorem drain_feed {bytes : Bytes} {frames : List Bytes} (hsound : d.Sound)
    (heq : bytes = Frame.encodeAll frames ++ d.raw) (hshort : ∀ f ∈ frames, f.length ≤ maxPayload) :
    (empty.feed bytes).drain.1 = frames ++ d.drain.1 ∧
      (empty.feed bytes).drain.2.1 = d.drain.2.1 := by
  obtain ⟨hall, hallEnd⟩ := drain_splits (d := empty.feed bytes) (sound_empty.feed bytes) rfl
  obtain ⟨hrest, hrestEnd⟩ := drain_splits hsound (Prod.ext rfl (Prod.ext rfl rfl))
  have hraw : (empty.feed bytes).raw = bytes := rfl
  rw [hraw] at hall
  have hsplits : Frame.Splits bytes (frames ++ d.drain.1) d.drain.2.2.raw := by
    refine ⟨?_, ?_, hrest.last⟩
    · rw [Frame.encodeAll_append, List.append_assoc, ← hrest.eq, heq]
    · intro f hf
      rcases List.mem_append.mp hf with hf | hf
      · exact hshort f hf
      · exact hrest.short f hf
  obtain ⟨hframes, hlast⟩ := hall.unique hsplits
  refine ⟨hframes, ?_⟩
  rw [hlast] at hallEnd
  rcases hallEnd with ⟨hnone, hpartial⟩ | ⟨hsome, hover⟩
  · rcases hrestEnd with ⟨hnone', -⟩ | ⟨-, hover'⟩
    · rw [hnone, hnone']
    · exact absurd hpartial (not_partial_of_oversized hover')
  · rcases hrestEnd with ⟨-, hpartial'⟩ | ⟨hsome', -⟩
    · exact absurd hpartial' (not_partial_of_oversized hover)
    · rw [hsome, hsome']

end Decoder

end PortForward

import PortForward.Address.Printer

/-!
# Compressed IPv6 addresses

Which of several runs of zero segments a text leaves out: the longest, of several as long the
first, and a single zero never. From this it follows that each IPv6 address is written as
RFC 5952 wants it.
-/

namespace PortForward.Ipv6

variable {segments : List UInt16} {start length : Nat} {ip : Ipv6} {v4 : Ipv4}

/-- From `start` on there are at least `length` zero segments in a row. -/
def IsRun (segments : List UInt16) (start length : Nat) : Prop :=
  ∀ i, start ≤ i → i < start + length → segments[i]? = some 0

theorem le_length_takeWhile_zero {n : Nat} {l : List UInt16} :
    n ≤ (l.takeWhile (· = 0)).length ↔ ∀ i < n, l[i]? = some 0 := by
  induction l generalizing n with
  | nil =>
    cases n with
    | zero => simp
    | succ n =>
      refine iff_of_false (Nat.not_succ_le_zero n) fun h => ?_
      cases h 0 (Nat.zero_lt_succ n)
  | cons s l ih =>
    cases n with
    | zero => simp
    | succ n =>
      rw [Nat.forall_lt_succ_left']
      by_cases hs : s = 0
      · simp [hs, ih]
      · simp [hs]

theorem isRun_iff : IsRun segments start length ↔ length ≤ zerosFrom segments start := by
  rw [zerosFrom, le_length_takeWhile_zero]
  constructor
  · intro h i hi
    rw [List.getElem?_drop]
    exact h _ (by omega) (by omega)
  · intro h i hge hlt
    obtain ⟨k, rfl⟩ := Nat.exists_eq_add_of_le hge
    rw [← List.getElem?_drop]
    exact h k (by omega)

theorem IsRun.le_length (h : IsRun segments start length) (hpos : 0 < length) :
    start + length ≤ segments.length := by
  have hlast := h (start + length - 1) (by omega) (by omega)
  have hlt := (List.getElem?_eq_some_iff.mp hlast).1
  omega

theorem IsRun.eq_append (h : IsRun segments start length) (hpos : 0 < length) :
    segments =
      segments.take start ++ List.replicate length 0 ++ segments.drop (start + length) := by
  have hle := h.le_length hpos
  have hrun : List.replicate length 0 = (segments.drop start).take length := by
    refine List.ext_getElem? fun i => ?_
    rw [List.getElem?_replicate, List.getElem?_take, List.getElem?_drop]
    split
    · exact (h _ (by omega) (by omega)).symm
    · rfl
  rw [hrun, List.append_assoc, ← List.drop_drop, List.take_append_drop, List.take_append_drop]

/-- A run that no other is longer than, and the first of those that are as long. -/
structure IsLongestRun (segments : List UInt16) (start length : Nat) : Prop where
  run : IsRun segments start length
  longest : ∀ s n, IsRun segments s n → n ≤ length
  first : ∀ s, IsRun segments s length → 0 < length → start ≤ s

/-- Keeping the better of the best so far and the next, from the left, finds the first maximum. -/
theorem foldl_best (f : Nat → Nat) (n : Nat) :
    let best := (List.range n).foldl
      (fun best i => if best.2 < f i then (i, f i) else best) (0, 0)
    best.1 ≤ n ∧ best.2 ≤ f best.1 ∧
      ∀ i < n, f i ≤ best.2 ∧ (f i = best.2 → 0 < best.2 → best.1 ≤ i) := by
  -- where the best stands is bounded too: one that is as good comes later, and is passed over
  induction n with
  | zero => exact ⟨Nat.le_refl 0, Nat.zero_le _, fun i hi => absurd hi (Nat.not_lt_zero i)⟩
  | succ n ih =>
    rw [List.range_succ, List.foldl_append, List.foldl_cons, List.foldl_nil]
    dsimp only at ih ⊢
    generalize (List.range n).foldl _ (0, 0) = best at ih ⊢
    obtain ⟨hle, hat, hall⟩ := ih
    split
    case isTrue hbetter =>
      refine ⟨Nat.le_succ n, Nat.le_refl _, fun i hi => ?_⟩
      rcases Nat.lt_succ_iff_lt_or_eq.mp hi with hlt | rfl
      · have hold := (hall i hlt).1
        exact ⟨by omega, by omega⟩
      · exact ⟨Nat.le_refl _, fun _ _ => Nat.le_refl _⟩
    case isFalse hworse =>
      refine ⟨Nat.le_succ_of_le hle, hat, fun i hi => ?_⟩
      rcases Nat.lt_succ_iff_lt_or_eq.mp hi with hlt | rfl
      · exact hall i hlt
      · exact ⟨Nat.not_lt.mp hworse, fun _ _ => hle⟩

theorem isLongestRun_zeroRun (segments : List UInt16) :
    IsLongestRun segments (zeroRun segments).1 (zeroRun segments).2 := by
  obtain ⟨-, hat, hall⟩ := foldl_best (zerosFrom segments) segments.length
  change (zeroRun segments).2 ≤ zerosFrom segments (zeroRun segments).1 at hat
  refine ⟨isRun_iff.mpr hat, ?_, ?_⟩
  · intro s n hrun
    by_cases hpos : 0 < n
    · have hle := hrun.le_length hpos
      exact Nat.le_trans (isRun_iff.mp hrun) (hall s (by omega)).1
    · exact Nat.le_trans (Nat.not_lt.mp hpos) (Nat.zero_le _)
  · intro s hrun hpos
    have hle := hrun.le_length hpos
    obtain ⟨hbest, hfirst⟩ := hall s (by omega)
    exact hfirst (Nat.le_antisymm hbest (isRun_iff.mp hrun)) hpos

theorem join_octets (s : UInt16) :
    (s / 256).toUInt8.toUInt16 * 256 + s.toUInt8.toUInt16 = s := by
  rw [← UInt16.toNat_inj]
  have hlt := s.toNat_lt
  simp
  omega

theorem high_octet (a b : UInt8) : ((a.toUInt16 * 256 + b.toUInt16) / 256).toUInt8 = a := by
  rw [← UInt8.toNat_inj]
  have ha := a.toNat_lt
  have hb := b.toNat_lt
  simp
  omega

theorem low_octet (a b : UInt8) : (a.toUInt16 * 256 + b.toUInt16).toUInt8 = b := by
  simp [← UInt8.toNat_inj]

/-- The segments before the IPv4 address in a mapped one. -/
def mappedFront : List UInt16 := [0, 0, 0, 0, 0, 0xffff]

theorem mapped?_eq_some_iff : ip.mapped? = some v4 ↔ ip.segments = mappedFront ++ v4.segments := by
  unfold mapped?
  constructor
  · intro h
    split at h
    case h_1 hi lo heq =>
      cases h
      rw [heq]
      simp only [mappedFront, Ipv4.segments, join_octets, List.cons_append, List.nil_append]
    case h_2 => cases h
  · intro h
    rw [h]
    simp only [mappedFront, Ipv4.segments, high_octet, low_octet, List.cons_append, List.nil_append]

/-- The forms that RFC 5952 asks for: a mapped IPv4 address in dotted form, and of the others no
run of two zeros that is written out. -/
inductive Written (ip : Ipv6) : List Char → Prop
  | mapped {v4 : Ipv4} : ip.segments = mappedFront ++ v4.segments →
      Written ip ("::ffff:".toList ++ v4.chars)
  | whole : (∀ v4 : Ipv4, ip.segments ≠ mappedFront ++ v4.segments) →
      (∀ start length, IsRun ip.segments start length → length ≤ 1) →
      Written ip (groups ip.segments)
  | compressed {start length : Nat} : (∀ v4 : Ipv4, ip.segments ≠ mappedFront ++ v4.segments) →
      1 < length → IsLongestRun ip.segments start length →
      Written ip
        (groups (ip.segments.take start) ++ "::".toList ++
          groups (ip.segments.drop (start + length)))

theorem written_chars (ip : Ipv6) : ip.Written ip.chars := by
  unfold chars
  cases hmapped : ip.mapped? with
  | some v4 => exact .mapped (mapped?_eq_some_iff.mp hmapped)
  | none =>
    have hnot : ∀ v4 : Ipv4, ip.segments ≠ mappedFront ++ v4.segments := by
      intro v4 h
      rw [mapped?_eq_some_iff.mpr h] at hmapped
      cases hmapped
    have hrun := isLongestRun_zeroRun ip.segments
    dsimp only
    split
    case isTrue hlong => exact .compressed hnot hlong hrun
    case isFalse hshort =>
      exact .whole hnot fun s n hs => Nat.le_trans (hrun.longest s n hs) (Nat.not_lt.mp hshort)

end PortForward.Ipv6

import PortForward.Text.Cut

/-!
# Cuts that undo a join

A text that was put together with a separator comes apart into the same parts, as long as no
part contains the separator itself.
-/

namespace PortForward.Text

variable {sep c : Char} {cs front back rest : List Char} {ps : List (List Char)}

theorem cut?_eq_none_iff : cut? sep cs = none ↔ sep ∉ cs := by
  induction cs with
  | nil => simp [cut?]
  | cons c cs ih =>
    by_cases hc : c = sep
    · simp [cut?, hc]
    · simp [cut?, hc, Ne.symm hc, ih]

theorem cut?_append (h : sep ∉ front) : cut? sep (front ++ sep :: back) = some (front, back) := by
  induction front with
  | nil => simp [cut?]
  | cons c front ih =>
    obtain ⟨hc, hrest⟩ := List.ne_and_not_mem_of_not_mem_cons h
    rw [List.cons_append, cut?, if_neg (Ne.symm hc), ih hrest]
    rfl

/-- A cut is made at the first separator. -/
theorem cut?_eq_some_iff :
    cut? sep cs = some (front, back) ↔ sep ∉ front ∧ cs = front ++ sep :: back := by
  constructor
  · intro h
    induction cs generalizing front with
    | nil => cases h
    | cons c cs ih =>
      rw [cut?] at h
      split at h
      case isTrue hc =>
        cases h
        exact ⟨List.not_mem_nil, by rw [hc, List.nil_append]⟩
      case isFalse hc =>
        obtain ⟨⟨front, back⟩, hcut, heq⟩ := Option.map_eq_some_iff.mp h
        cases heq
        obtain ⟨hfront, rfl⟩ := ih hcut
        exact ⟨List.not_mem_cons_of_ne_of_not_mem (Ne.symm hc) hfront, rfl⟩
  · rintro ⟨hfront, rfl⟩
    exact cut?_append hfront

theorem pieces_eq_splitOn (cs : List Char) : pieces sep cs = cs.splitOn sep := by
  induction cs with
  | nil => rfl
  | cons c cs ih =>
    rw [List.splitOn, List.splitOnP_cons_eq_if_modifyHead, ← List.splitOn, ← ih, pieces]
    by_cases hc : c = sep
    · simp [hc]
    · cases hps : pieces sep cs with
      | nil =>
        rw [ih] at hps
        exact absurd hps (List.splitOn_ne_nil sep cs)
      | cons p ps => simp [hc]

theorem pieces_intercalate (hps : ∀ p ∈ ps, sep ∉ p) (hne : ps ≠ []) :
    pieces sep ([sep].intercalate ps) = ps := by
  rw [pieces_eq_splitOn, List.splitOn_intercalate sep hps hne]

theorem intercalate_pieces (sep : Char) (cs : List Char) :
    [sep].intercalate (pieces sep cs) = cs := by
  rw [pieces_eq_splitOn, List.intercalate_splitOn]

theorem not_mem_intercalate (hc : c ≠ sep) (hps : ∀ p ∈ ps, c ∉ p) :
    c ∉ [sep].intercalate ps := by
  induction ps with
  | nil => simp
  | cons p ps ih =>
    obtain ⟨hp, hps⟩ := List.forall_mem_cons.mp hps
    cases ps with
    | nil => simpa using hp
    | cons q ps =>
      rw [List.intercalate_cons_cons]
      simp [hp, hc, ih hps]

theorem eq_append_of_cutDouble? (h : cutDouble? sep cs = some (front, back)) :
    cs = front ++ sep :: sep :: back := by
  induction cs generalizing front with
  | nil => cases h
  | cons c cs ih =>
    cases cs with
    | nil => cases h
    | cons d cs =>
      rw [cutDouble?] at h
      split at h
      case isTrue hsep =>
        cases h
        rw [hsep.1, hsep.2, List.nil_append]
      case isFalse =>
        obtain ⟨⟨front, back⟩, hcut, heq⟩ := Option.map_eq_some_iff.mp h
        cases heq
        rw [ih hcut, List.cons_append]

theorem cutDouble?_cons_of_ne (hc : c ≠ sep) :
    cutDouble? sep (c :: cs) =
      (cutDouble? sep cs).map fun (before, after) => (c :: before, after) := by
  cases cs with
  | nil => rfl
  | cons d cs => rw [cutDouble?, if_neg fun h => hc h.1]

theorem cutDouble?_append_of_not_mem (h : sep ∉ front) :
    cutDouble? sep (front ++ rest) =
      (cutDouble? sep rest).map fun (before, after) => (front ++ before, after) := by
  induction front with
  | nil => simp
  | cons c front ih =>
    obtain ⟨hc, hrest⟩ := List.ne_and_not_mem_of_not_mem_cons h
    rw [List.cons_append, cutDouble?_cons_of_ne (Ne.symm hc), ih hrest, Option.map_map]
    rfl

/-- A separator that something else follows is no cut. -/
theorem cutDouble?_sep_cons (hc : c ≠ sep) :
    cutDouble? sep (sep :: c :: cs) =
      (cutDouble? sep (c :: cs)).map fun (before, after) => (sep :: before, after) := by
  rw [cutDouble?, if_neg fun h => hc h.2]

theorem cutDouble?_intercalate_append (hps : ∀ p ∈ ps, p ≠ [] ∧ sep ∉ p) (rest : List Char) :
    cutDouble? sep ([sep].intercalate ps ++ rest) =
      (cutDouble? sep rest).map fun (before, after) => ([sep].intercalate ps ++ before, after) := by
  induction ps with
  | nil => simp
  | cons p ps ih =>
    obtain ⟨⟨-, hp⟩, hps⟩ := List.forall_mem_cons.mp hps
    cases ps with
    | nil => simpa using cutDouble?_append_of_not_mem hp
    | cons q ps =>
      obtain ⟨⟨hne, hq⟩, -⟩ := List.forall_mem_cons.mp hps
      obtain ⟨c, q, rfl⟩ := List.exists_cons_of_ne_nil hne
      -- the next part is not empty, so the separator before it stands alone
      have hc : c ≠ sep := fun h => hq (h ▸ List.mem_cons_self)
      have hhead : ∃ tail, [sep].intercalate ((c :: q) :: ps) ++ rest = c :: tail := by
        cases ps <;> simp [List.intercalate_cons_cons]
      obtain ⟨tail, htail⟩ := hhead
      have hih := ih hps
      rw [htail] at hih
      rw [List.intercalate_cons_cons, List.append_assoc, List.append_assoc, List.singleton_append,
        htail, cutDouble?_append_of_not_mem hp, cutDouble?_sep_cons hc, hih]
      simp [Option.map_map, Function.comp_def]

theorem cutDouble?_intercalate (hps : ∀ p ∈ ps, p ≠ [] ∧ sep ∉ p) :
    cutDouble? sep ([sep].intercalate ps) = none := by
  simpa [cutDouble?] using cutDouble?_intercalate_append hps []

theorem cutDouble?_intercalate_double (hps : ∀ p ∈ ps, p ≠ [] ∧ sep ∉ p) :
    cutDouble? sep ([sep].intercalate ps ++ sep :: sep :: back) =
      some ([sep].intercalate ps, back) := by
  rw [cutDouble?_intercalate_append hps]
  simp [cutDouble?]

end PortForward.Text

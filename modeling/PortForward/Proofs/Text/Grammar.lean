import Mathlib.Data.List.Forall2
import Mathlib.Data.List.Induction
import PortForward.Proofs.Text.Numeral
import PortForward.Text.Cut

/-!
# The grammar of numerals and of words

What the digits of a base are, and which number a list of them stands for: the last digit counts
once, and what stands before it as often as the base says. Reading a numeral is deciding this. A
word is recognized in either case of each letter, and a letter is one that ASCII has.
-/

namespace PortForward.Numeral

/-- The character stands for this value. From ten on the digits are letters, of either case. -/
def IsDigit (base : Nat) (c : Char) (d : Nat) : Prop :=
  d < base ∧ (c = Nat.digitChar d ∨ c = (Nat.digitChar d).toUpper)

/-- The number that one digit or more stand for. -/
inductive Digits (base : Nat) : List Char → Nat → Prop
  | one {c d} : IsDigit base c d → Digits base [c] d
  | snoc {cs c n d} : Digits base cs n → IsDigit base c d →
      Digits base (cs ++ [c]) (n * base + d)

/-- Decimal digits that one `+` may precede. -/
def Signed (cs : List Char) (n : Nat) : Prop :=
  Digits 10 cs n ∨ ∃ digits, cs = '+' :: digits ∧ Digits 10 digits n

variable {base bound d n : Nat} {c : Char} {cs : List Char}

theorem isDigit_of_digit? (h : digit? 16 c = some d) :
    c = Nat.digitChar d ∨ c = (Nat.digitChar d).toUpper := by
  have hchar : ∀ {low high : Char} (digit : Nat → Char), low ≤ c ∧ c ≤ high →
      (∀ k ≤ high.toNat - low.toNat, Char.ofNat (low.toNat + k) = digit k) →
      c = digit (c.toNat - low.toNat) := by
    rintro low high digit ⟨hlow, hhigh⟩ hall
    have hlow : low.toNat ≤ c.toNat := hlow
    have hhigh : c.toNat ≤ high.toNat := hhigh
    rw [← hall _ (by omega), Nat.add_sub_cancel' hlow, Char.ofNat_toNat]
  obtain ⟨hvalue, -⟩ := Option.filter_eq_some_iff.mp h
  split at hvalue
  case isTrue hrange =>
    cases hvalue
    exact .inl (hchar Nat.digitChar hrange (by decide))
  case isFalse =>
    split at hvalue
    case isTrue hrange =>
      cases hvalue
      exact .inl (hchar (fun k => Nat.digitChar (k + 10)) hrange (by decide))
    case isFalse =>
      split at hvalue
      case isTrue hrange =>
        cases hvalue
        exact .inr (hchar (fun k => (Nat.digitChar (k + 10)).toUpper) hrange (by decide))
      case isFalse => cases hvalue

theorem digit?_eq_some_iff (hbase : base ≤ 16) : digit? base c = some d ↔ IsDigit base c d := by
  have hall : ∀ d < 16, digit? 16 (Nat.digitChar d) = some d ∧
      digit? 16 (Nat.digitChar d).toUpper = some d := by decide
  rw [digit?_eq_filter hbase, Option.filter_eq_some_iff, decide_eq_true_eq, IsDigit, and_comm]
  refine and_congr_right fun hd => ⟨isDigit_of_digit?, ?_⟩
  rintro (rfl | rfl)
  · exact (hall d (by omega)).1
  · exact (hall d (by omega)).2

theorem extend?_snoc : extend? base n (cs ++ [c]) =
    (extend? base n cs).bind fun m => (digit? base c).map (m * base + ·) := by
  rw [extend?_append]
  congr 1
  funext m
  rw [extend?]
  cases digit? base c <;> rfl

theorem read?_eq_some_iff (hbase : base ≤ 16) : read? base cs = some n ↔ Digits base cs n := by
  constructor
  · induction cs using List.reverseRecOn generalizing n with
    | nil => exact nofun
    | append_singleton cs c ih =>
      intro h
      rw [read?, if_neg (by simp), extend?_snoc] at h
      obtain ⟨m, hm, h⟩ := Option.bind_eq_some_iff.mp h
      obtain ⟨d, hd, rfl⟩ := Option.map_eq_some_iff.mp h
      have hd := (digit?_eq_some_iff hbase).mp hd
      by_cases hcs : cs = []
      · subst hcs
        cases hm
        rw [Nat.zero_mul, Nat.zero_add]
        exact .one hd
      · exact .snoc (ih (by rw [read?, if_neg hcs, hm])) hd
  · intro h
    induction h with
    | one hd =>
      rw [read?, if_neg (by simp), extend?, (digit?_eq_some_iff hbase).mpr hd]
      simp [extend?]
    | @snoc cs c n d hn hd ih =>
      have hne : cs ≠ [] := by
        rintro rfl
        cases ih
      rw [read?, if_neg hne] at ih
      rw [read?, if_neg (by simp), extend?_snoc, ih, (digit?_eq_some_iff hbase).mpr hd]
      rfl

theorem readBelow?_eq_some_iff (hbase : base ≤ 16) :
    readBelow? base bound cs = some n ↔ Digits base cs n ∧ n < bound := by
  rw [readBelow?, Option.filter_eq_some_iff, read?_eq_some_iff hbase, decide_eq_true_eq]

theorem Digits.ne_nil (h : Digits base cs n) : cs ≠ [] := by
  cases h <;> simp

theorem Digits.not_mem (hbase : base ≤ 16) (hc : digit? base c = none) (h : Digits base cs n) :
    c ∉ cs := by
  intro hmem
  have hnone : readBelow? base (n + 1) cs = none := readBelow?_eq_none_of_mem hc hmem
  rw [(readBelow?_eq_some_iff hbase).mpr ⟨h, Nat.lt_succ_self n⟩] at hnone
  cases hnone

theorem readSigned?_eq_some_iff : readSigned? bound cs = some n ↔ Signed cs n ∧ n < bound := by
  have hplus : ∀ digits m, ¬ Digits 10 ('+' :: digits) m := fun digits m h =>
    h.not_mem (by decide) (c := '+') (by decide) List.mem_cons_self
  unfold readSigned? Signed
  split
  case h_1 digits =>
    rw [readBelow?_eq_some_iff (by decide)]
    simp [hplus]
  case h_2 hnot =>
    rw [readBelow?_eq_some_iff (by decide)]
    refine and_congr_left fun _ => (or_iff_left ?_).symm
    rintro ⟨digits, rfl, -⟩
    exact hnot digits rfl

theorem Signed.not_mem (hplus : c ≠ '+') (hc : digit? 10 c = none) (h : Signed cs n) :
    c ∉ cs := by
  rcases h with h | ⟨digits, rfl, h⟩
  · exact h.not_mem (by decide) hc
  · exact List.not_mem_cons_of_ne_of_not_mem hplus (h.not_mem (by decide) hc)

/-- What is read of a number below a bound may be kept in a type that has just these numbers. -/
theorem map_eq_some_iff_of_inverse {α : Type} {a : α} {ofNat : Nat → α} {toNat : α → Nat}
    {number? : Option Nat} {Spells : Nat → Prop}
    (hnumber : ∀ n, number? = some n ↔ Spells n ∧ n < bound)
    (hleft : ∀ n < bound, toNat (ofNat n) = n)
    (hright : ∀ a, toNat a < bound ∧ ofNat (toNat a) = a) :
    number?.map ofNat = some a ↔ Spells (toNat a) := by
  rw [Option.map_eq_some_iff]
  constructor
  · rintro ⟨n, hn, rfl⟩
    obtain ⟨hspells, hlt⟩ := (hnumber n).mp hn
    rwa [hleft n hlt]
  · intro hspells
    obtain ⟨hlt, hsame⟩ := hright a
    exact ⟨toNat a, (hnumber _).mpr ⟨hspells, hlt⟩, hsame⟩

end PortForward.Numeral

namespace PortForward.Text

/-- The text is the word, each letter in either case. -/
def InEitherCase (word cs : List Char) : Prop :=
  List.Forall₂ (fun letter c => c = letter ∨ c = letter.toUpper) word cs

variable {word cs : List Char}

theorem eq_toLower_or_eq_toUpper (c : Char) : c = c.toLower ∨ c = c.toLower.toUpper := by
  by_cases hupper : 'A' ≤ c ∧ c ≤ 'Z'
  · have hall : ∀ k < 26, Char.ofNat (65 + k) = (Char.ofNat (65 + k)).toLower.toUpper := by decide
    have hlow : 65 ≤ c.toNat := hupper.1
    have hhigh : c.toNat ≤ 90 := hupper.2
    have hc := hall (c.toNat - 65) (by omega)
    rw [Nat.add_sub_cancel' hlow, Char.ofNat_toNat] at hc
    exact .inr hc
  · have hsame : c.toLower = c := dif_neg hupper
    exact .inl hsame.symm

theorem lower_eq_iff
    (hword : word.all fun letter => letter.toLower = letter ∧ letter.toUpper.toLower = letter) :
    lower cs = word ↔ InEitherCase word cs := by
  simp only [List.all_eq_true, decide_eq_true_eq] at hword
  constructor
  · rintro rfl
    refine List.forall₂_map_left_iff.mpr (List.forall₂_same.mpr fun c _ => ?_)
    exact eq_toLower_or_eq_toUpper c
  · intro h
    induction h with
    | nil => rfl
    | cons hc _ ih =>
      obtain ⟨⟨hlower, hupper⟩, hword⟩ := List.forall_mem_cons.mp hword
      rw [← ih hword]
      rcases hc with rfl | rfl
      · exact congrArg (· :: _) hlower
      · exact congrArg (· :: _) hupper

theorem InEitherCase.not_mem {c : Char}
    (hc : word.all fun letter => c ≠ letter ∧ c ≠ letter.toUpper)
    (h : InEitherCase word cs) : c ∉ cs := by
  simp only [List.all_eq_true, decide_eq_true_eq] at hc
  induction h with
  | nil => exact List.not_mem_nil
  | cons hd _ ih =>
    obtain ⟨⟨hlower, hupper⟩, hc⟩ := List.forall_mem_cons.mp hc
    refine List.not_mem_cons_of_ne_of_not_mem ?_ (ih hc)
    rcases hd with rfl | rfl
    · exact hlower
    · exact hupper

end PortForward.Text

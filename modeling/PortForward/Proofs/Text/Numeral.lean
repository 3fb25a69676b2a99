import PortForward.Text.Numeral

/-!
# Numerals read back

A number written in a base up to sixteen is read as itself, it has no leading zero, and it
contains nothing but digits, so that a separator can be found behind it.
-/

namespace PortForward.Numeral

variable {base bound d n : Nat} {c : Char} {cs : List Char}

theorem digit?_eq_filter (hbase : base ≤ 16) :
    digit? base c = (digit? 16 c).filter (· < base) := by
  have hsame : ∀ d, (decide (d < 16) && decide (d < base)) = decide (d < base) := by
    intro d
    rw [← Bool.decide_and, decide_eq_decide]
    omega
  unfold digit?
  simp only [Option.filter_filter, hsame]

theorem digit?_digitChar (hbase : base ≤ 16) (hd : d < base) :
    digit? base (Nat.digitChar d) = some d := by
  have hall : ∀ d < 16, digit? 16 (Nat.digitChar d) = some d := by decide
  rw [digit?_eq_filter hbase, hall d (by omega)]
  simp [hd]

theorem extend?_append (cs more : List Char) :
    extend? base n (cs ++ more) = (extend? base n cs).bind (extend? base · more) := by
  induction cs generalizing n with
  | nil => rfl
  | cons c cs ih =>
    rw [List.cons_append, extend?, extend?, Option.bind_assoc]
    simp only [ih]

theorem extend?_toDigits (hpos : 1 < base) (hbase : base ≤ 16) (n : Nat) :
    extend? base 0 (Nat.toDigits base n) = some n := by
  induction n using Nat.strongRecOn with
  | ind n ih =>
    by_cases hlt : n < base
    · rw [Nat.toDigits_of_lt_base hlt, extend?, digit?_digitChar hbase hlt]
      simp [extend?]
    · have hlast := Nat.mod_lt n (by omega : 0 < base)
      have hfront := ih (n / base) (Nat.div_lt_self (by omega) hpos)
      rw [Nat.toDigits_of_base_le hpos (by omega), extend?_append, hfront, Option.bind_some,
        extend?, digit?_digitChar hbase hlast, Option.bind_some, extend?, Nat.div_add_mod']

theorem extend?_eq_none_of_mem (hc : digit? base c = none) (hmem : c ∈ cs) (n : Nat) :
    extend? base n cs = none := by
  induction cs generalizing n with
  | nil => cases hmem
  | cons x cs ih =>
    rw [extend?]
    rcases List.mem_cons.mp hmem with rfl | hmem
    · rw [hc, Option.bind_none]
    · rw [Option.bind_eq_none_iff]
      exact fun d _ => ih hmem _

theorem readBelow?_eq_none_of_mem (hc : digit? base c = none) (hmem : c ∈ cs) :
    readBelow? base bound cs = none := by
  rw [readBelow?, read?, if_neg (List.ne_nil_of_mem hmem), extend?_eq_none_of_mem hc hmem,
    Option.filter_none]

theorem read?_toDigits (hpos : 1 < base) (hbase : base ≤ 16) (n : Nat) :
    read? base (Nat.toDigits base n) = some n := by
  rw [read?, if_neg Nat.toDigits_ne_nil, extend?_toDigits hpos hbase]

theorem not_mem_toDigits (hpos : 1 < base) (hbase : base ≤ 16) (hc : digit? base c = none)
    (n : Nat) : c ∉ Nat.toDigits base n := by
  intro hmem
  have hnone := extend?_eq_none_of_mem hc hmem 0
  rw [extend?_toDigits hpos hbase] at hnone
  cases hnone

/-- Only zero itself starts with a zero. -/
theorem head?_toDigits (hpos : 1 < base) (hbase : base ≤ 16) (hn : n ≠ 0) :
    (Nat.toDigits base n).head? ≠ some '0' := by
  induction n using Nat.strongRecOn with
  | ind n ih =>
    by_cases hlt : n < base
    · rw [Nat.toDigits_of_lt_base hlt]
      intro hzero
      have hread := digit?_digitChar hbase hlt
      rw [Option.some.inj hzero] at hread
      have hread' : digit? base '0' = some 0 :=
        digit?_digitChar (d := 0) hbase (by omega)
      exact hn (Option.some.inj (hread.symm.trans hread'))
    · have hfront := ih (n / base) (Nat.div_lt_self (by omega) hpos)
        (Nat.ne_of_gt (Nat.div_pos (by omega) (by omega)))
      rw [Nat.toDigits_of_base_le hpos (by omega), List.head?_append]
      cases hhead : (Nat.toDigits base (n / base)).head? with
      | none => exact absurd (List.head?_eq_none_iff.mp hhead) Nat.toDigits_ne_nil
      | some c => rwa [hhead] at hfront

theorem readBelow?_toDigits (hpos : 1 < base) (hbase : base ≤ 16) (hn : n < bound) :
    readBelow? base bound (Nat.toDigits base n) = some n := by
  rw [readBelow?, read?_toDigits hpos hbase]
  simp [hn]

theorem hexadecimal_ne_nil (n : Nat) : hexadecimal n ≠ [] := Nat.toDigits_ne_nil

theorem readBelow?_decimal (hn : n < bound) : readBelow? 10 bound (decimal n) = some n :=
  readBelow?_toDigits (by decide) (by decide) hn

theorem readBelow?_hexadecimal (hn : n < bound) :
    readBelow? 16 bound (hexadecimal n) = some n :=
  readBelow?_toDigits (by decide) (by decide) hn

theorem not_mem_decimal (hc : digit? 10 c = none) (n : Nat) : c ∉ decimal n :=
  not_mem_toDigits (by decide) (by decide) hc n

theorem not_mem_hexadecimal (hc : digit? 16 c = none) (n : Nat) : c ∉ hexadecimal n :=
  not_mem_toDigits (by decide) (by decide) hc n

theorem head?_decimal (hlong : 1 < (decimal n).length) : (decimal n).head? ≠ some '0' := by
  refine head?_toDigits (by decide) (by decide) ?_
  rintro rfl
  exact absurd hlong (by decide)

theorem length_hexadecimal_le (hn : n < 65536) : (hexadecimal n).length ≤ 4 :=
  (Nat.length_toDigits_le_iff (by decide) (by decide)).mpr hn

/-- A sign is accepted, but none is written. -/
theorem readSigned?_decimal (hn : n < bound) : readSigned? bound (decimal n) = some n := by
  have hplus : '+' ∉ decimal n := not_mem_decimal (by decide) n
  unfold readSigned?
  split
  case h_1 cs heq =>
    rw [heq] at hplus
    exact absurd List.mem_cons_self hplus
  case h_2 => exact readBelow?_decimal hn

end PortForward.Numeral

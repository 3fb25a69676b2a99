/-!
# Numerals

Unsigned numbers written as digits in a base up to sixteen. Reading accepts leading
zeros and either case of a letter; writing produces neither. Where a format forbids
leading zeros or bounds the number of digits, the reader of that format says so.

This module does NOT know about signs other than the optional `+` of `readSigned?`.
-/

namespace PortForward.Numeral

def digit? (base : Nat) (c : Char) : Option Nat :=
  let value? :=
    if '0' ≤ c ∧ c ≤ '9' then some (c.toNat - '0'.toNat)
    else if 'a' ≤ c ∧ c ≤ 'f' then some (c.toNat - 'a'.toNat + 10)
    else if 'A' ≤ c ∧ c ≤ 'F' then some (c.toNat - 'A'.toNat + 10)
    else none
  value?.filter (· < base)

/-- The value of digits that follow a number already read. -/
def extend? (base : Nat) : Nat → List Char → Option Nat
  | n, [] => some n
  | n, c :: cs => (digit? base c).bind fun d => extend? base (n * base + d) cs

def read? (base : Nat) (cs : List Char) : Option Nat :=
  if cs = [] then none else extend? base 0 cs

/-- The value of a nonempty list of digits, if it lies below `bound`. -/
def readBelow? (base bound : Nat) (cs : List Char) : Option Nat :=
  (read? base cs).filter (· < bound)

/-- Decimal digits below `bound` that one `+` may precede. -/
def readSigned? (bound : Nat) : List Char → Option Nat
  | '+' :: cs => readBelow? 10 bound cs
  | cs => readBelow? 10 bound cs

def decimal (n : Nat) : List Char := Nat.toDigits 10 n

def hexadecimal (n : Nat) : List Char := Nat.toDigits 16 n

/-- Why a decimal number was refused. -/
inductive Refusal
  | empty
  | invalidDigit
  | tooLarge
  deriving DecidableEq, Repr

def Refusal.message : Refusal → String
  | .empty => "cannot parse integer from empty string"
  | .invalidDigit => "invalid digit found in string"
  | .tooLarge => "number too large to fit in target type"

/-- Reads digits from the left and stops at the first fault: at one position a foreign
character is reported before an overflow. -/
def extendChecked (bound : Nat) : Nat → List Char → Except Refusal Nat
  | n, [] => .ok n
  | n, c :: cs =>
    match digit? 10 c with
    | none => .error .invalidDigit
    | some d => if n * 10 + d < bound then extendChecked bound (n * 10 + d) cs else .error .tooLarge

/-- Decimal digits below `bound` that one `+` may precede, or the reason for refusing them. -/
def readChecked (bound : Nat) : List Char → Except Refusal Nat
  | [] => .error .empty
  | ['+'] => .error .invalidDigit
  | '+' :: cs => extendChecked bound 0 cs
  | cs => extendChecked bound 0 cs

end PortForward.Numeral

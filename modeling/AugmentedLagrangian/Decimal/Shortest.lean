/- # AugmentedLagrangian.Decimal.Shortest — the fewest digits that read back

A finite number is written with the fewest decimal digits from which reading recovers it; of the
candidates with that many digits, with the one nearest to the number, and of two equally near ones
with the larger.  `fewestDigits` looks for them on coarser and coarser grids' two neighbours of the
number and asks the reader itself, `Binary64.ofDecimal`, whether a candidate reads back.
-/
import AugmentedLagrangian.Decimal.Binary64

namespace AugmentedLagrangian.Decimal

set_option autoImplicit false

/-- An integer times a power of ten. -/
structure Digits where
  digits : Nat
  exponent : Int
  deriving DecidableEq, Repr

/-- The number of decimal digits, at least one. -/
def digitCount (n : Nat) : Nat :=
  (Nat.toDigits 10 n).length

namespace Digits

/-- The same number with final zeros moved into the exponent, at most `room` of them. -/
def trimUpTo : Nat → Digits → Digits
  | 0, d => d
  | room + 1, d =>
    if d.digits ≠ 0 ∧ d.digits % 10 = 0 then trimUpTo room ⟨d.digits / 10, d.exponent + 1⟩ else d

/-- The same number without final zeros. -/
def trim (d : Digits) : Digits :=
  d.trimUpTo (digitCount d.digits)

/-- Where the first digit stands: the number is at least `10 ^ leading` and below ten times that. -/
def leading (d : Digits) : Int :=
  d.exponent + digitCount d.digits - 1

end Digits

/-- How many digits stand before the decimal point of `num / den`; for ratios below one, less the
zeros that follow the point. -/
def pointPlace (num den : Nat) : Int :=
  if den ≤ num then digitCount (num / den) else 1 - (digitCount (den / num) : Int)

/-- The two neighbours of `num / den` among the multiples of `10 ^ exponent`: the lower, and whether
the upper is at least as near. -/
def neighbour (num den : Nat) (exponent : Int) : Nat × Bool :=
  let (num, den) :=
    if 0 ≤ exponent then (num, den * Nat.pow 10 exponent.toNat)
    else (num * Nat.pow 10 (-exponent).toNat, den)
  (num / den, decide (den ≤ 2 * (num % den)))

/-- The nearest number with `count` digits that reads back as the word, if there is one. -/
def withDigits (word num den count : Nat) : Option Digits :=
  let exponent := pointPlace num den - count
  let (low, upperNearer) := neighbour num den exponent
  let readsBack (n : Nat) := Binary64.ofDecimal n exponent == word
  let (first, second) := if upperNearer then (low + 1, low) else (low, low + 1)
  if readsBack first then some ⟨first, exponent⟩
  else if readsBack second then some ⟨second, exponent⟩
  else none

/-- The exact decimal expansion of the word's number. -/
def exactDigits (word : Nat) : Digits :=
  ⟨Binary64.units word * Nat.pow 5 1074, -1074⟩

/-- The fewest digits that read back as the word of a positive finite number.  Seventeen always
do. -/
def fewestDigits (word : Nat) : Digits :=
  let num := Binary64.units word
  match (List.range 17).findSome? fun i => withDigits word num Binary64.unitsPerOne (i + 1) with
  | some d => d.trim
  | none => (exactDigits word).trim

end AugmentedLagrangian.Decimal

/- # AugmentedLagrangian.Decimal.Layout — how a number is written

A `Layout` settles what the digits alone do not: when a number is written positionally and when with
an exponent, whether a whole number keeps a `.0`, and what stands for the values without digits.
Each place that writes numbers has its own `Layout`.
-/
import AugmentedLagrangian.Decimal.Shortest

namespace AugmentedLagrangian.Decimal

set_option autoImplicit false

/-- The decisions of a number format. -/
structure Layout where
  /-- Whether a number whose first digit stands at this power of ten is written positionally. -/
  positional : Int → Bool
  /-- What follows a whole number that is written positionally. -/
  wholeMark : List Char
  nan : List Char
  infinity : List Char

/-- The decimal digits of a natural number. -/
def natText (n : Nat) : List Char :=
  Nat.toDigits 10 n

/-- An integer, with a minus sign if it is negative. -/
def intText (i : Int) : List Char :=
  if i < 0 then '-' :: natText i.natAbs else natText i.natAbs

/-- The digits with a decimal point in place. -/
def positionalText (wholeMark : List Char) (d : Digits) : List Char :=
  let ds := natText d.digits
  if 0 ≤ d.exponent then ds ++ List.replicate d.exponent.toNat '0' ++ wholeMark
  else
    let places := (-d.exponent).toNat
    if places < ds.length then ds.take (ds.length - places) ++ '.' :: ds.drop (ds.length - places)
    else '0' :: '.' :: (List.replicate (places - ds.length) '0' ++ ds)

/-- One digit before the point, the others after it, and the power of ten. -/
def exponentText (d : Digits) : List Char :=
  let mantissa :=
    match natText d.digits with
    | [] => []
    | [c] => [c]
    | c :: cs => c :: '.' :: cs
  mantissa ++ 'e' :: intText d.leading

/-- The number without its sign. -/
def Layout.magnitudeText (l : Layout) (word : Nat) : List Char :=
  if word = 0 then '0' :: l.wholeMark
  else
    let d := fewestDigits word
    if l.positional d.leading then positionalText l.wholeMark d else exponentText d

/-- The number as the layout writes it. -/
def Layout.text (l : Layout) (x : Float) : List Char :=
  let word := Binary64.wordOf x
  if Binary64.infinityWord < word then l.nan
  else
    let body := if word = Binary64.infinityWord then l.infinity else l.magnitudeText word
    if Binary64.isNegative x then '-' :: body else body

/-- Numbers inside messages and tables are positional, and whole ones bare. -/
def plain : Layout :=
  ⟨fun _ => true, [], "NaN".toList, "inf".toList⟩

/-- A number inside a message. -/
def plainText (x : Float) : String :=
  String.ofList (plain.text x)

end AugmentedLagrangian.Decimal

/- # AugmentedLagrangian.Scalar — the numbers an algorithm computes with

Everything numerical in this library is written once, over a type `R` with the operations of
`Scalar R`, in the order in which the operations are performed.  At `Float` the definitions run.
At a type whose operations do not round, the same definitions are the mathematics.

A `Scalar` has no laws beyond one: the whole line from `-∞` to `∞` is an interval.  A comparison
with a value that is no number is false, so `a < b` and `b ≤ a` are never taken for each other's
negation, and a test that must also refuse such a value is written as the comparison that it fails.
-/
namespace AugmentedLagrangian

set_option autoImplicit false

/-- The operations of an arithmetic: the four operations, negation, order, decimal literals, the
magnitude, and the values that are not finite. -/
class Scalar (R : Type) extends Add R, Sub R, Mul R, Div R, Neg R, LT R, LE R, OfScientific R where
  ltDecidable : DecidableLT R
  leDecidable : DecidableLE R
  /-- The value without its sign. -/
  magnitude : R → R
  /-- Whether the value is no number, as the outcome of `0 / 0` is. -/
  isNaN : R → Bool
  /-- A value that is no number. -/
  nan : R
  infinity : R
  /-- The whole line is an interval. -/
  line : -infinity ≤ infinity

instance Scalar.decideLt {R : Type} [Scalar R] : DecidableLT R :=
  Scalar.ltDecidable

instance Scalar.decideLe {R : Type} [Scalar R] : DecidableLE R :=
  Scalar.leDecidable

/-- Double precision, with the rounding of its hardware. -/
instance : Scalar Float where
  ltDecidable := inferInstance
  leDecidable := inferInstance
  magnitude := Float.abs
  isNaN := Float.isNaN
  nan := 0.0 / 0.0
  infinity := 1.0 / 0.0
  line := by decide

namespace Scalar

variable {R : Type} [Scalar R]

/-- The larger of two values; of a value and one that is no number, the value. -/
def larger (a b : R) : R :=
  if isNaN a then b else if isNaN b then a else if a < b then b else a

/-- The smaller of two values; of a value and one that is no number, the value. -/
def smaller (a b : R) : R :=
  if isNaN a then b else if isNaN b then a else if b < a then b else a

/-- The value moved into `[lo, hi]`.  What is no number stays so. -/
def pin (lo hi x : R) : R :=
  if isNaN x then x else smaller (larger x lo) hi

/-- Whether the value lies strictly between the infinities. -/
def isFinite (x : R) : Bool :=
  decide (-infinity < x) && decide (x < infinity)

/-- The sum from the left, starting at zero. -/
def sum (xs : List R) : R :=
  xs.foldl (· + ·) 0.0

/-- The magnitudes' maximum, and no number as soon as one entry is none. -/
def normInf (xs : List R) : R :=
  xs.foldl (fun acc x => if isNaN x || isNaN acc then nan else larger acc (magnitude x)) 0.0

end Scalar

end AugmentedLagrangian

/- # AugmentedLagrangian.Box.Basic — axis-aligned boxes

An `Interval` is a pair of bounds of which the lower is at most the upper, so neither is no number;
infinite bounds leave a side free.  A `Box` is a list of intervals, one per coordinate.

Bounds enter through `Interval.make`, `Box.ofBounds` and `Box.set`, which say what is wrong with a
pair that is no interval.  Whatever is done to a box afterwards, it is a list of intervals still.
-/
import AugmentedLagrangian.Scalar

namespace AugmentedLagrangian

set_option autoImplicit false

open Scalar (isNaN infinity pin)

variable {R : Type} [Scalar R]

/-- A pair of bounds in order. -/
structure Interval (R : Type) [Scalar R] where
  lower : R
  upper : R
  ordered : lower ≤ upper

/-- Why bounds do not make a box. -/
inductive BoxError (R : Type) where
  /-- As many lower as upper bounds are needed. -/
  | lengths (lower upper : Nat)
  /-- A bound of the coordinate is no number. -/
  | notANumber (index : Nat)
  /-- The lower bound of the coordinate exceeds the upper. -/
  | crossed (index : Nat) (lower upper : R)
  /-- The box has no such coordinate. -/
  | outOfRange (index size : Nat)

namespace Interval

/-- The whole line. -/
def line : Interval R :=
  ⟨-infinity, infinity, Scalar.line⟩

/-- The interval with these bounds, for the coordinate `index`. -/
def make (index : Nat) (lower upper : R) : Except (BoxError R) (Interval R) :=
  if isNaN lower || isNaN upper then .error (.notANumber index)
  else if h : lower ≤ upper then .ok ⟨lower, upper, h⟩
  else .error (.crossed index lower upper)

/-- The interval between two values that are known to be in order. -/
def between (lower upper : R) (ordered : lower ≤ upper) : Interval R :=
  ⟨lower, upper, ordered⟩

/-- Whether the value lies between the bounds, ends included. -/
def holds (i : Interval R) (x : R) : Bool :=
  decide (i.lower ≤ x) && decide (x ≤ i.upper)

/-- The nearest value of the interval. -/
def project (i : Interval R) (x : R) : R :=
  pin i.lower i.upper x

/-- How far the value lies from the interval, with its sign. -/
def offset (i : Interval R) (x : R) : R :=
  x - i.project x

end Interval

/-- One interval per coordinate. -/
structure Box (R : Type) [Scalar R] where
  intervals : List (Interval R)

namespace Box

/-- The number of coordinates. -/
def size (b : Box R) : Nat :=
  b.intervals.length

def isEmpty (b : Box R) : Bool :=
  b.intervals.isEmpty

/-- The lower bounds in order. -/
def lowers (b : Box R) : List R :=
  b.intervals.map Interval.lower

/-- The upper bounds in order. -/
def uppers (b : Box R) : List R :=
  b.intervals.map Interval.upper

@[simp] theorem length_lowers (b : Box R) : b.lowers.length = b.size := by
  simp [lowers, size]

@[simp] theorem length_uppers (b : Box R) : b.uppers.length = b.size := by
  simp [uppers, size]

/-- All of space, in `k` coordinates. -/
def unbounded (k : Nat) : Box R :=
  ⟨List.replicate k .line⟩

@[simp] theorem size_unbounded (k : Nat) : (unbounded k : Box R).size = k := by
  simp [unbounded, size]

/-- The intervals of paired bounds, numbered from `index`. -/
def intervalsFrom : Nat → List R → List R → Except (BoxError R) (List (Interval R))
  | index, lo :: lowers, hi :: uppers => do
    let i ← Interval.make index lo hi
    return i :: (← intervalsFrom (index + 1) lowers uppers)
  | _, _, _ => .ok []

/-- The box with these bounds.  Unequal lengths are refused first, then the first pair that is no
interval. -/
def ofBounds (lowers uppers : List R) : Except (BoxError R) (Box R) :=
  if lowers.length = uppers.length then Box.mk <$> intervalsFrom 0 lowers uppers
  else .error (.lengths lowers.length uppers.length)

/-- The box with the bounds of one coordinate replaced. -/
def set (b : Box R) (index : Nat) (lower upper : R) : Except (BoxError R) (Box R) :=
  if index < b.size then do
    let i ← Interval.make index lower upper
    return ⟨b.intervals.set index i⟩
  else .error (.outOfRange index b.size)

/-- The box with `k` coordinates: surplus ones are dropped, new ones are free. -/
def resize (b : Box R) (k : Nat) : Box R :=
  ⟨b.intervals.take k ++ List.replicate (k - b.size) .line⟩

@[simp] theorem size_resize (b : Box R) (k : Nat) : (b.resize k).size = k := by
  simp only [resize, size, List.length_append, List.length_take, List.length_replicate]
  omega

/-- Whether the point has one coordinate per interval, each inside. -/
def contains (b : Box R) (z : List R) : Bool :=
  z.length == b.size && (b.intervals.zip z).all fun (i, x) => i.holds x

/-- The nearest point of the box. -/
def project (b : Box R) (z : List R) : List R :=
  List.zipWith Interval.project b.intervals z

@[simp] theorem length_project (b : Box R) (z : List R) :
    (b.project z).length = min b.size z.length := by
  simp [project, size]

/-- How far the point lies from the box in each coordinate. -/
def offset (b : Box R) (z : List R) : List R :=
  List.zipWith Interval.offset b.intervals z

end Box

end AugmentedLagrangian

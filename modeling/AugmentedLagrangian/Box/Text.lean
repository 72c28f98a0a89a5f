/- # AugmentedLagrangian.Box.Text — boxes in messages and summaries

A message says what is wrong with bounds, with numbers in full and bare.  A summary shows a value
with everything in it; there, whole numbers keep a `.0`, and very small and very large ones are
written with an exponent.
-/
import AugmentedLagrangian.Constraints
import AugmentedLagrangian.Decimal.Layout

namespace AugmentedLagrangian

set_option autoImplicit false

def BoxError.message : BoxError Float → String
  | lengths lower upper =>
    s!"lower bound has length {lower} but upper bound has length {upper}"
  | notANumber index => s!"bound {index} is NaN"
  | crossed index lower upper =>
    "lower bound " ++ Decimal.plainText lower ++ " exceeds upper bound " ++
      Decimal.plainText upper ++ s!" at index {index}"
  | outOfRange index size => s!"index {index} out of range for box of size {size}"

namespace Summary

/-- Numbers in summaries. -/
def layout : Decimal.Layout :=
  ⟨fun leading => -4 ≤ leading && leading < 16, ".0".toList, "NaN".toList, "inf".toList⟩

def real (x : Float) : String :=
  String.ofList (layout.text x)

/-- Texts one after the other in brackets. -/
def list (texts : List String) : String :=
  "[" ++ ", ".intercalate texts ++ "]"

def reals (xs : List Float) : String :=
  list (xs.map real)

/-- A structure by its name and fields, with a mark behind them. -/
def fields (name : String) (mark : String) (fields : List (String × String)) : String :=
  name ++ " \x7b " ++ ", ".intercalate (fields.map fun (key, text) => key ++ ": " ++ text) ++ mark ++
    " \x7d"

/-- A structure by its name and all its fields. -/
def record (name : String) : List (String × String) → String :=
  fields name ""

/-- A structure by its name and some of its fields. -/
def excerpt (name : String) : List (String × String) → String :=
  fields name ", .."

end Summary

def Box.summary (b : Box Float) : String :=
  Summary.record "Bounds"
    [("lowerbound", Summary.reals b.lowers), ("upperbound", Summary.reals b.uppers)]

def Constraints.summary (c : Constraints Float) : String :=
  Summary.record "Constraints" [("c", c.domain.summary), ("d", c.values.summary)]

end AugmentedLagrangian

/- # AugmentedLagrangian.Box.Document — boxes as documents

A box is a table with the list of its lower bounds and that of its upper bounds, and a pair of boxes
is a table with the two.  Both parts are needed either way, and what is read is a box only if the
bounds make one.
-/
import AugmentedLagrangian.Constraints
import AugmentedLagrangian.Toml.Record

namespace AugmentedLagrangian

set_option autoImplicit false

open Toml (Key Kind)

/-- Two parts of a structure, as far as they have been given. -/
structure Halves (α : Type) where
  first : Option α := none
  second : Option α := none

namespace Halves

variable {E α : Type}

/-- The keys of the two parts. -/
def keys (kind : Kind E α) (first second : String) : List (Key E (Halves α)) :=
  [kind.optional.key first (·.first) fun v h => { h with first := v },
    kind.optional.key second (·.second) fun v h => { h with second := v }]

/-- Both parts. -/
def both : Halves α → Except (ReadError E) (α × α)
  | ⟨some a, some b⟩ => .ok (a, b)
  | _ => .error .malformed

end Halves

/-- Boxes as documents. -/
def Box.kind : Kind (BoxError Float) (Box Float) where
  take item := do
    let (lowers, uppers) ← (← Key.record boundKeys {} item).both
    (Box.ofBounds lowers uppers).mapError .refused
  give b := some (.table .headed (Key.entries boundKeys ⟨some b.lowers, some b.uppers⟩))
where
  boundKeys := Halves.keys (Kind.list .real) "lowerbound" "upperbound"

/-- Pairs of boxes as documents. -/
def Constraints.kind : Kind (BoxError Float) (Constraints Float) where
  take item := do
    let (domain, values) ← (← Key.record boxKeys {} item).both
    return ⟨domain, values⟩
  give c := some (.table .headed (Key.entries boxKeys ⟨some c.domain, some c.values⟩))
where
  boxKeys := Halves.keys Box.kind "c" "d"

end AugmentedLagrangian

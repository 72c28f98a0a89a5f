/- # AugmentedLagrangian.Problem.Polynomial — primitives given by polynomials

A polynomial is a list of terms in the entries of the point `x`, the parameters `p`, the multipliers
`y` and a direction `v`.  It is evaluated as it stands: each term multiplies its coefficient by its
variables from left to right, and the terms are added from left to right to zero.

`PolynomialPrimitives` gives primitives by polynomials, entry by entry of what they write.
-/
import AugmentedLagrangian.Problem.Basic

namespace AugmentedLagrangian

set_option autoImplicit false

/-- The vector that a variable is an entry of. -/
inductive Symbol where
  | x
  | p
  | y
  | v
  deriving DecidableEq, Repr

/-- A coefficient times variables. -/
structure Term (R : Type) where
  coefficient : R
  factors : List (Symbol × Nat)

abbrev Polynomial (R : Type) : Type := List (Term R)

/-- The vectors at which polynomials are evaluated. -/
structure Assignment (R : Type) where
  x : List R
  p : List R := []
  y : List R := []
  v : List R := []

variable {R : Type} [Scalar R]

/-- The value of a variable, if the vector has such an entry. -/
def Assignment.entry? (a : Assignment R) : Symbol × Nat → Option R
  | (.x, i) => a.x[i]?
  | (.p, i) => a.p[i]?
  | (.y, i) => a.y[i]?
  | (.v, i) => a.v[i]?

/-- The coefficient times the variables' values, from left to right. -/
def Term.value? (a : Assignment R) (t : Term R) : Option R :=
  t.factors.foldlM (fun acc name => (acc * ·) <$> a.entry? name) t.coefficient

/-- The sum of the terms, from left to right. -/
def Polynomial.value? (a : Assignment R) (f : Polynomial R) : Option R :=
  f.foldlM (fun acc t => (acc + ·) <$> t.value? a) 0.0

namespace Polynomial

/-- The polynomial's value; a variable without a value is a breach. -/
def eval (f : Polynomial R) (a : Assignment R) : Except EvalError R :=
  match f.value? a with
  | some r => .ok r
  | none => .error .breach

/-- Writes the polynomials' values, as many as both the polynomials and the buffer have entries. -/
def write (fs : List (Polynomial R)) (a : Assignment R) (buffer : List R) :
    Written (List R) Unit :=
  match (fs.take buffer.length).mapM (value? a) with
  | some values => overwrite values buffer
  | none => .failed buffer .breach

/-- Writes the rows of polynomials into the rows of a matrix, which must have room for every
polynomial. -/
def writeRows (rows : List (List (Polynomial R))) (a : Assignment R) (buffer : List (List R)) :
    Written (List (List R)) Unit :=
  let row (fs : List (Polynomial R)) (old : List R) : Option (List R) := do
    let values ← fs.mapM (value? a)
    if values.length ≤ old.length then some (values ++ old.drop values.length) else none
  if (rows.drop buffer.length).all List.isEmpty then
    match (rows.zip buffer).mapM fun (fs, old) => row fs old with
    | some written => .done (written ++ buffer.drop rows.length) ()
    | none => .failed buffer .breach
  else .failed buffer .breach

end Polynomial

/-- Primitives given by polynomials. -/
structure PolynomialPrimitives (R : Type) where
  cost? : Option (Polynomial R) := none
  costGrad? : Option (List (Polynomial R)) := none
  constr? : Option (List (Polynomial R)) := none
  constrGradProd? : Option (List (Polynomial R)) := none
  constrGrad? : Option (List (List (Polynomial R))) := none
  lagrHessProd? : Option (List (Polynomial R)) := none
  lagrHess? : Option (List (List (Polynomial R))) := none

/-- The primitives at the parameters `p`. -/
def PolynomialPrimitives.at (prims : PolynomialPrimitives R) (p : List R) : Primitives R where
  cost? := prims.cost?.map fun f x => f.eval { x, p }
  costGrad? := prims.costGrad?.map fun fs x => Polynomial.write fs { x, p }
  constr? := prims.constr?.map fun fs x => Polynomial.write fs { x, p }
  constrGradProd? := prims.constrGradProd?.map fun fs x y => Polynomial.write fs { x, p, y }
  constrGrad? := prims.constrGrad?.map fun rows x i buffer =>
    match rows[i]? with
    | some fs => Polynomial.write fs { x, p } buffer
    | none => .failed buffer .breach
  lagrHessProd? := prims.lagrHessProd?.map fun fs x y v => Polynomial.write fs { x, p, y, v }
  lagrHess? := prims.lagrHess?.map fun rows x y => Polynomial.writeRows rows { x, p, y }

end AugmentedLagrangian

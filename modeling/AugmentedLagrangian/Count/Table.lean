/- # AugmentedLagrangian.Count.Table — the report of a counter

One line per operation: its label, its calls and its time in seconds, in columns.
-/
import AugmentedLagrangian.Count.Counter
import AugmentedLagrangian.Decimal.Layout

namespace AugmentedLagrangian

set_option autoImplicit false

/-- The label of the operation in reports. -/
def Operation.label : Operation → String
  | cost => "f"
  | costGrad => "grad_f"
  | costWithGrad => "f_grad_f"
  | costWithConstr => "f_g"
  | costWithGradConstr => "f_grad_f_g"
  | gradTerms => "grad_f_grad_g_prod"
  | constr => "g"
  | constrGradProd => "grad_g_prod"
  | constrGrad => "grad_gi"
  | lagrGrad => "grad_L"
  | lagrHessProd => "hess_L_prod"
  | lagrHess => "hess_L"
  | merit => "ψ"
  | meritGrad => "grad_ψ"
  | meritGradFrom => "grad_ψ_from_ŷ"
  | meritWithGrad => "ψ_grad_ψ"

namespace Counter

/-- Blanks in front of a text, up to a width in characters. -/
def padLeft (width : Nat) (text : List Char) : List Char :=
  List.replicate (width - text.length) ' ' ++ text

/-- The line of one operation. -/
def line (c : Counter) (op : Operation) : List Char :=
  padLeft 18 op.label.toList ++ ':' :: padLeft 6 (Decimal.natText (c.calls.get op).toNat)
    ++ "  (".toList ++ Decimal.plain.text (c.times.get op).toSeconds ++ " s)".toList

/-- The lines of all operations. -/
def table (c : Counter) : String :=
  String.ofList (['\n'].intercalate (Operation.all.map c.line))

end Counter

end AugmentedLagrangian

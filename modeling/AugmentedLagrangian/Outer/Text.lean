/- # AugmentedLagrangian.Outer.Text — refused settings and failed solves, in words

A refused setting is named by its group and key, with what is asked of it.  The message of a solve
without an outcome says whether its settings were refused or its problem failed, and how.
-/
import AugmentedLagrangian.Outer.Loop
import AugmentedLagrangian.Problem.Text

namespace AugmentedLagrangian

set_option autoImplicit false

namespace Group

/-- The name of the group in messages. -/
def name : Group → String
  | outer => "AlmParams"
  | panoc => "PanocParams"
  | lipschitz => "LipschitzParams"
  | lbfgs => "LbfgsParams"

end Group

/-- The name of the field in messages. -/
def SettingsField.name (f : SettingsField) : String :=
  f.group.name ++ "::" ++ f.key

/-- What is asked of a field, in words. -/
def Range.text : Range → String
  | positive => "must be positive"
  | nonNegative => "must be non-negative"
  | nonZero => "cannot be 0"
  | aboveOne => "must be greater than 1"
  | upToOne => "must be in (0, 1]"
  | insideUnit => "must be in (0, 1)"
  | belowOne => "must be in [0, 1)"
  | atLeast key => "must not be less than " ++ key

/-- The message about a refused setting. -/
def Violation.message (v : Violation) : String :=
  "invalid " ++ v.field.name ++ ": " ++ v.range.text

/-- The message of a solve without an outcome, which is settled if that of the cause is. -/
def SolveError.message? : SolveError → Option String
  | settings v => some ("invalid configuration: " ++ v.message)
  | problem e => ("problem error: " ++ ·) <$> e.message?

end AugmentedLagrangian

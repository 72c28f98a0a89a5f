import AugmentedLagrangian.Box.Document
import AugmentedLagrangian.Count.Form
import AugmentedLagrangian.Count.Table
import AugmentedLagrangian.Inner.ProjectedGradient
import AugmentedLagrangian.Inner.Replay
import AugmentedLagrangian.Outer.Text
import AugmentedLagrangian.Outer.WorkVectors
import AugmentedLagrangian.Problem.Polynomial
import AugmentedLagrangian.Problem.Probe
import AugmentedLagrangian.Proofs.Admissible
import AugmentedLagrangian.Proofs.Certificate
import AugmentedLagrangian.Proofs.Double
import AugmentedLagrangian.Proofs.Ending
import AugmentedLagrangian.Proofs.Exact
import AugmentedLagrangian.Proofs.History
import AugmentedLagrangian.Proofs.Invalid
import AugmentedLagrangian.Proofs.Iteration
import AugmentedLagrangian.Proofs.Kernel
import AugmentedLagrangian.Proofs.Layering
import AugmentedLagrangian.Proofs.Lengths
import AugmentedLagrangian.Proofs.LostMultipliers
import AugmentedLagrangian.Proofs.MeritAgreement
import AugmentedLagrangian.Proofs.MeritGradient
import AugmentedLagrangian.Proofs.PenaltyWeights
import AugmentedLagrangian.Proofs.Recurrence
import AugmentedLagrangian.Proofs.Regular
import AugmentedLagrangian.Proofs.SettingsText
import AugmentedLagrangian.Proofs.Tolerance
import AugmentedLagrangian.Proofs.Trajectory
import AugmentedLagrangian.Proofs.Truncation
import AugmentedLagrangian.Proofs.Variants
import AugmentedLagrangian.Proofs.WeightGrowth
import AugmentedLagrangian.Proofs.WeightProgress
import AugmentedLagrangian.Proofs.WorkVectors
import AugmentedLagrangian.Reference.Himmelblau
import AugmentedLagrangian.Reference.Rosenbrock
import AugmentedLagrangian.Settings.Document
import AugmentedLagrangian.Proofs.Scaling
import AugmentedLagrangian.Proofs.Tightening
import AugmentedLagrangian.Proofs.SharedWeight
import AugmentedLagrangian.Proofs.Division
import AugmentedLagrangian.Proofs.Metering
import AugmentedLagrangian.Proofs.Safety
import AugmentedLagrangian.Proofs.CallLog
import AugmentedLagrangian.Proofs.BoxHistory
import AugmentedLagrangian.Proofs.Duplicates
import AugmentedLagrangian.Proofs.Renumbering
import AugmentedLagrangian.Proofs.RenumberedRun
import AugmentedLagrangian.Proofs.SettingsNumbers
import AugmentedLagrangian.Proofs.BoxPoints
import AugmentedLagrangian.Proofs.ClippedMultipliers
import AugmentedLagrangian.Proofs.BoxText
import AugmentedLagrangian.Proofs.MeritDistance
import AugmentedLagrangian.Proofs.MultiplierSigns
import AugmentedLagrangian.Proofs.Complementarity
import AugmentedLagrangian.Proofs.Projection
import AugmentedLagrangian.Proofs.WeightUpdate
import AugmentedLagrangian.Proofs.LoneConstraint
import AugmentedLagrangian.Proofs.FirstWeight
import AugmentedLagrangian.Proofs.MissingPrimitives
import AugmentedLagrangian.Proofs.Agreement
import AugmentedLagrangian.Proofs.QuadraticFamily
import AugmentedLagrangian.Proofs.Derivatives
import AugmentedLagrangian.Proofs.QuadraticSolution
import AugmentedLagrangian.Proofs.ViolationNorm
import AugmentedLagrangian.Proofs.FirstViolation
import AugmentedLagrangian.Proofs.StoredCounter
import AugmentedLagrangian.Proofs.PartialDocument
import AugmentedLagrangian.Proofs.PartialText

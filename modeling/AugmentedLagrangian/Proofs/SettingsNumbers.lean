/- # AugmentedLagrangian.Proofs.SettingsNumbers — which settings are sure to be numbers

A condition that holds of a value has compared it, and a comparison holds of numbers only.  So where
settings are accepted, every real that a condition looks at is a number, whichever way the condition
is written: above a bound, between two, or at least another setting.

No condition looks at the power `alpha` of the accepted corrections.  It is the one setting that may
be no number, and a document can say so in plain words (`unchecked_not_numbers`); all settings are
numbers exactly if it is one (`accepted_numbers_iff`).
-/
import AugmentedLagrangian.Proofs.Admissible
import AugmentedLagrangian.Proofs.SettingsText

namespace AugmentedLagrangian

set_option autoImplicit false

open Scalar (isNaN Numbers Ordered numbers_append)

section Reals

variable {R : Type}

/-! ## The reals among the settings -/

def OuterSettings.reals (s : OuterSettings R) : List R :=
  [s.epsilon, s.delta, s.penaltyUpdateFactor, s.initialPenaltyFactor, s.initialTolerance,
    s.toleranceUpdateFactor, s.relPenaltyIncreaseThreshold, s.maxMultiplier, s.maxPenalty,
    s.minPenalty] ++ s.initialPenalty.toList

def LipschitzSettings.reals (s : LipschitzSettings R) : List R :=
  [s.l0, s.epsilon, s.delta, s.lGammaFactor]

def PanocSettings.reals (s : PanocSettings R) : List R :=
  [s.tauMin, s.lMin, s.lMax, s.fprShortcutAcceptFactor, s.quadraticUpperboundToleranceFactor] ++
    s.lipschitz.reals

def CbfgsSettings.reals (s : CbfgsSettings R) : List R :=
  [s.alpha, s.epsilon]

/-- All reals among the settings. -/
def SolverSettings.reals (s : SolverSettings R) : List R :=
  s.outer.reals ++ s.panoc.reals ++ s.lbfgs.cbfgs.reals

/-- All of them but the power `alpha`. -/
def SolverSettings.checkedReals (s : SolverSettings R) : List R :=
  s.outer.reals ++ s.panoc.reals ++ [s.lbfgs.cbfgs.epsilon]

variable [Scalar R]

theorem SolverSettings.numbers_reals_iff {s : SolverSettings R} (checked : Numbers s.checkedReals) :
    Numbers s.reals ↔ isNaN s.lbfgs.cbfgs.alpha = false := by
  obtain ⟨others, epsilon⟩ := numbers_append.1 checked
  rw [reals, numbers_append, and_iff_right others]
  constructor
  · intro numbers
    exact numbers _ List.mem_cons_self
  · intro alpha
    exact List.forall_mem_cons.2 ⟨alpha, epsilon⟩

/-! ## What the conditions have looked at -/

variable [Ordered R] {lo hi x : R}

theorem number_of_above (above : lo < x) : isNaN x = false :=
  Scalar.isNaN_right (Scalar.le_of_lt above)

theorem number_of_least (least : lo ≤ x) : isNaN x = false :=
  Scalar.isNaN_right least

theorem OuterSettings.Admissible.numbers {s : OuterSettings R} (good : s.Admissible) :
    Numbers s.reals := by
  rw [OuterSettings.reals, numbers_append]
  constructor
  · simp only [Numbers, List.forall_mem_cons]
    exact ⟨number_of_above good.epsilon, number_of_above good.delta,
      number_of_above good.penaltyUpdateFactor, number_of_above good.initialPenaltyFactor,
      number_of_above good.initialTolerance, number_of_above good.toleranceUpdateFactor.1,
      number_of_above good.relPenaltyIncreaseThreshold.1, number_of_above good.maxMultiplier,
      number_of_least good.maxPenalty, number_of_above good.minPenalty, List.forall_mem_nil _⟩
  · intro σ member
    apply number_of_above
    exact good.initialPenalty σ (Option.mem_toList.1 member)

theorem LipschitzSettings.Admissible.numbers {s : LipschitzSettings R} (good : s.Admissible) :
    Numbers s.reals := by
  simp only [Numbers, LipschitzSettings.reals, List.forall_mem_cons]
  exact ⟨number_of_least good.l0, number_of_above good.epsilon, number_of_above good.delta,
    number_of_above good.lGammaFactor.1, List.forall_mem_nil _⟩

theorem PanocSettings.Admissible.numbers {s : PanocSettings R} (good : s.Admissible) :
    Numbers s.reals := by
  rw [PanocSettings.reals, numbers_append]
  constructor
  · simp only [Numbers, List.forall_mem_cons]
    exact ⟨number_of_above good.tauMin.1, number_of_least good.lMin, number_of_least good.lMax.1,
      number_of_least good.fprShortcutAcceptFactor.1,
      number_of_least good.quadraticUpperboundToleranceFactor, List.forall_mem_nil _⟩
  · exact good.lipschitz.numbers

theorem SolverSettings.Admissible.numbers {s : SolverSettings R} (good : s.Admissible) :
    Numbers s.checkedReals := by
  rw [SolverSettings.checkedReals, numbers_append, numbers_append]
  refine ⟨⟨good.outer.numbers, good.panoc.numbers⟩, ?_⟩
  exact List.forall_mem_singleton.2 (number_of_least good.lbfgs.epsilon)

end Reals

/-! ## Accepted settings -/

namespace SolverSettings

/-- Settings that are accepted, from a document or as they are, are in range wherever they are
checked.  Their reals are numbers but perhaps `alpha`, so all of them are exactly if that is one. -/
theorem accepted_numbers_iff {c : SolverSettings Float}
    (accepted : (∃ text, ofText text = .ok c) ∨ Requirement.check c.requirements = .ok ()) :
    c.Admissible ∧ Numbers c.checkedReals ∧
      (Numbers c.reals ↔ isNaN c.lbfgs.cbfgs.alpha = false) := by
  have good : c.Admissible := by
    apply check_requirements.1
    rcases accepted with ⟨text, read⟩ | accepted
    · exact (ofText_eq_ok_iff.1 read).2
    · exact accepted
  exact ⟨good, good.numbers, numbers_reals_iff good.numbers⟩

theorem default_numbers :
    (∃ text, ofText text = .ok default) ∧ (default (R := Float)).Admissible ∧
      Numbers (default (R := Float)).reals := by
  have read : ofText "" = .ok default := rfl
  obtain ⟨good, -, all⟩ := accepted_numbers_iff (.inl ⟨"", read⟩)
  exact ⟨⟨"", read⟩, good, all.2 rfl⟩

/-- The settings with no number for the power. -/
def unchecked : SolverSettings Float :=
  { (default : SolverSettings Float) with lbfgs.cbfgs.alpha := Scalar.nan }

/-- They are read from a document that says so, and accepted. -/
theorem unchecked_not_numbers :
    ofText "[lbfgs.cbfgs]\nalpha = nan\n" = .ok unchecked ∧
      Requirement.check unchecked.requirements = .ok () ∧
      isNaN unchecked.lbfgs.cbfgs.alpha = true ∧ ¬ Numbers unchecked.reals := by
  have read : ofText "[lbfgs.cbfgs]\nalpha = nan\n" = .ok unchecked := by rfl
  have nan : isNaN unchecked.lbfgs.cbfgs.alpha = true := by rfl
  refine ⟨read, (ofText_eq_ok_iff.1 read).2, nan, fun numbers => ?_⟩
  have number := numbers unchecked.lbfgs.cbfgs.alpha (by simp [reals, CbfgsSettings.reals])
  rw [nan] at number
  cases number

end SolverSettings

end AugmentedLagrangian

/- # AugmentedLagrangian.Proofs.FirstViolation — which settings are refused, and for which field

The settings are checked one requirement after the other.  `SolverSettings.conditions` is the list
of what is asked, in order, each with the field that is named when it fails, and `FailsAt` says
which field that is when several conditions fail at once.

A checker may as well look for reasons to refuse: a value is refused if it is no number or on the
wrong side of a bound, unless it lies between two bounds, or, once both are known to be numbers, if
it is below another setting.  On values that are no number such tests and the conditions they test
are not each other's negation by form, and they agree because everything that is compared without a
test of its own has passed a condition before (`first_refusals`).
-/
import AugmentedLagrangian.Outer.Text
import AugmentedLagrangian.Proofs.Admissible
import AugmentedLagrangian.Proofs.Double

namespace AugmentedLagrangian

set_option autoImplicit false

open Scalar (isNaN Ordered)

/-! ## Conditions in order -/

/-- A condition, and the field that is named if it fails. -/
structure Condition where
  field : String
  holds : Prop

/-- The first condition that fails is about this field. -/
inductive FailsAt : List Condition → String → Prop
  | here {c : Condition} {cs : List Condition} (fails : ¬ c.holds) : FailsAt (c :: cs) c.field
  | later {c : Condition} {cs : List Condition} {name : String} (holds : c.holds)
      (rest : FailsAt cs name) : FailsAt (c :: cs) name

/-- The requirement decides the condition, and names its field. -/
structure Requirement.Decides (r : Requirement) (c : Condition) : Prop where
  names : r.field.name = c.field
  iff : r.holds = true ↔ c.holds

theorem Requirement.check_ok_iff {rs : List Requirement} {cs : List Condition}
    (decides : List.Forall₂ Decides rs cs) : check rs = .ok () ↔ ∀ c ∈ cs, c.holds := by
  rw [check_eq_ok]
  induction decides with
  | nil => simp
  | cons decides _ ih => rw [List.forall_mem_cons, List.forall_mem_cons, decides.iff, ih]

theorem Requirement.check_error_iff {rs : List Requirement} {cs : List Condition}
    (decides : List.Forall₂ Decides rs cs) {name : String} :
    (∃ v, check rs = .error v ∧ v.field.name = name) ↔ FailsAt cs name := by
  induction decides with
  | nil =>
      constructor
      · rintro ⟨v, checked, -⟩
        cases checked
      · rintro ⟨⟩
  | @cons r c rs cs decides _ ih =>
      cases holds : r.holds with
      | true =>
          rw [check, holds, if_pos rfl, ih]
          refine ⟨.later (decides.iff.1 holds), fun failed => ?_⟩
          cases failed with
          | here fails => exact absurd (decides.iff.1 holds) fails
          | later _ rest => exact rest
      | false =>
          have fails : ¬ c.holds := mt decides.iff.2 (Bool.eq_false_iff.1 holds)
          rw [check, holds, if_neg Bool.false_ne_true]
          constructor
          · rintro ⟨v, ⟨⟩, rfl⟩
            rw [decides.names]
            exact .here fails
          · intro failed
            cases failed with
            | here => exact ⟨_, rfl, decides.names⟩
            | later holds _ => exact absurd holds fails

/-! ## What is asked of the settings -/

section Conditions

variable {R : Type} [Scalar R]

/-- What is asked of the settings, in the order in which it is checked. -/
def SolverSettings.conditions (s : SolverSettings R) : List Condition :=
  [⟨"AlmParams::epsilon", 0.0 < s.outer.epsilon⟩,
    ⟨"AlmParams::delta", 0.0 < s.outer.delta⟩,
    ⟨"AlmParams::penalty_update_factor", 1.0 < s.outer.penaltyUpdateFactor⟩,
    ⟨"AlmParams::initial_penalty", ∀ σ ∈ s.outer.initialPenalty, 0.0 < σ⟩,
    ⟨"AlmParams::initial_penalty_factor", 0.0 < s.outer.initialPenaltyFactor⟩,
    ⟨"AlmParams::initial_tolerance", 0.0 < s.outer.initialTolerance⟩,
    ⟨"AlmParams::tolerance_update_factor",
      0.0 < s.outer.toleranceUpdateFactor ∧ s.outer.toleranceUpdateFactor ≤ 1.0⟩,
    ⟨"AlmParams::rel_penalty_increase_threshold",
      0.0 < s.outer.relPenaltyIncreaseThreshold ∧ s.outer.relPenaltyIncreaseThreshold < 1.0⟩,
    ⟨"AlmParams::max_multiplier", 0.0 < s.outer.maxMultiplier⟩,
    ⟨"AlmParams::min_penalty", 0.0 < s.outer.minPenalty⟩,
    ⟨"AlmParams::max_penalty", s.outer.minPenalty ≤ s.outer.maxPenalty⟩,
    ⟨"AlmParams::max_iter", s.outer.maxIter ≠ 0⟩,
    ⟨"AlmParams::max_time", s.outer.maxTime ≠ .zero⟩,
    ⟨"LipschitzParams::l0", 0.0 ≤ s.panoc.lipschitz.l0⟩,
    ⟨"LipschitzParams::epsilon", 0.0 < s.panoc.lipschitz.epsilon⟩,
    ⟨"LipschitzParams::delta", 0.0 < s.panoc.lipschitz.delta⟩,
    ⟨"LipschitzParams::l_gamma_factor",
      0.0 < s.panoc.lipschitz.lGammaFactor ∧ s.panoc.lipschitz.lGammaFactor < 1.0⟩,
    ⟨"PanocParams::max_iter", s.panoc.maxIter ≠ 0⟩,
    ⟨"PanocParams::max_time", s.panoc.maxTime ≠ .zero⟩,
    ⟨"PanocParams::tau_min", 0.0 < s.panoc.tauMin ∧ s.panoc.tauMin < 1.0⟩,
    ⟨"PanocParams::l_min", 0.0 ≤ s.panoc.lMin⟩,
    ⟨"PanocParams::l_max", 0.0 ≤ s.panoc.lMax⟩,
    ⟨"PanocParams::l_max", s.panoc.lMin ≤ s.panoc.lMax⟩,
    ⟨"PanocParams::fpr_shortcut_accept_factor",
      0.0 ≤ s.panoc.fprShortcutAcceptFactor ∧ s.panoc.fprShortcutAcceptFactor < 1.0⟩,
    ⟨"PanocParams::fpr_shortcut_history", s.panoc.fprShortcutHistory ≠ 0⟩,
    ⟨"PanocParams::quadratic_upperbound_tolerance_factor",
      0.0 ≤ s.panoc.quadraticUpperboundToleranceFactor⟩,
    ⟨"LbfgsParams::memory", s.lbfgs.memory ≠ 0⟩,
    ⟨"LbfgsParams::cbfgs.epsilon", 0.0 ≤ s.lbfgs.cbfgs.epsilon⟩]

theorem Duration.nanoseconds_eq_zero {d : Duration} : d.nanoseconds = 0 ↔ d = .zero := by
  constructor
  · intro none
    cases d
    cases none
    rfl
  · rintro rfl
    rfl

/-- The requirements decide the conditions, one by one. -/
theorem SolverSettings.decides_conditions (s : SolverSettings R) :
    List.Forall₂ Requirement.Decides s.requirements s.conditions := by
  simp only [requirements, OuterSettings.requirements, PanocSettings.requirements,
    LipschitzSettings.requirements, LbfgsSettings.requirements, conditions, List.cons_append,
    List.nil_append, List.forall₂_cons, List.Forall₂.nil, and_true]
  and_intros
  all_goals exact ⟨rfl, by simp [Option.all_eq_true, Duration.nanoseconds_eq_zero]⟩

end Conditions

/-! ## Looking for reasons to refuse -/

/-- A test that refuses a field. -/
structure Refusal where
  field : SettingsField
  range : Range
  refuses : Bool

/-- The first test that refuses. -/
def Refusal.first : List Refusal → Except Violation Unit
  | [] => .ok ()
  | t :: ts => if t.refuses then .error ⟨t.field, t.range⟩ else first ts

section Refusals

variable {R : Type} [Scalar R]

/-- Refuses all but values above the bound. -/
def refusesUpTo (bound x : R) : Bool :=
  isNaN x || decide (x ≤ bound)

/-- Refuses all but values from the bound on. -/
def refusesBelow (bound x : R) : Bool :=
  isNaN x || decide (x < bound)

def OuterSettings.refusals (s : OuterSettings R) : List Refusal :=
  let field (key : String) : SettingsField := ⟨.outer, key⟩
  [⟨field "epsilon", .positive, refusesUpTo 0.0 s.epsilon⟩,
    ⟨field "delta", .positive, refusesUpTo 0.0 s.delta⟩,
    ⟨field "penalty_update_factor", .aboveOne, refusesUpTo 1.0 s.penaltyUpdateFactor⟩,
    ⟨field "initial_penalty", .positive, s.initialPenalty.any (refusesUpTo 0.0)⟩,
    ⟨field "initial_penalty_factor", .positive, refusesUpTo 0.0 s.initialPenaltyFactor⟩,
    ⟨field "initial_tolerance", .positive, refusesUpTo 0.0 s.initialTolerance⟩,
    ⟨field "tolerance_update_factor", .upToOne,
      !(decide (0.0 < s.toleranceUpdateFactor) && decide (s.toleranceUpdateFactor ≤ 1.0))⟩,
    ⟨field "rel_penalty_increase_threshold", .insideUnit,
      !(decide (0.0 < s.relPenaltyIncreaseThreshold) &&
        decide (s.relPenaltyIncreaseThreshold < 1.0))⟩,
    ⟨field "max_multiplier", .positive, refusesUpTo 0.0 s.maxMultiplier⟩,
    ⟨field "min_penalty", .positive, refusesUpTo 0.0 s.minPenalty⟩,
    ⟨field "max_penalty", .atLeast "min_penalty", refusesBelow s.minPenalty s.maxPenalty⟩,
    ⟨field "max_iter", .nonZero, s.maxIter == 0⟩,
    ⟨field "max_time", .nonZero, s.maxTime.nanoseconds == 0⟩]

def LipschitzSettings.refusals (s : LipschitzSettings R) : List Refusal :=
  let field (key : String) : SettingsField := ⟨.lipschitz, key⟩
  [⟨field "l0", .nonNegative, refusesBelow 0.0 s.l0⟩,
    ⟨field "epsilon", .positive, refusesUpTo 0.0 s.epsilon⟩,
    ⟨field "delta", .positive, refusesUpTo 0.0 s.delta⟩,
    ⟨field "l_gamma_factor", .insideUnit,
      !(decide (0.0 < s.lGammaFactor) && decide (s.lGammaFactor < 1.0))⟩]

/-- That `lMax` is not below `lMin` is tested by the comparison alone. -/
def PanocSettings.refusals (s : PanocSettings R) : List Refusal :=
  let field (key : String) : SettingsField := ⟨.panoc, key⟩
  s.lipschitz.refusals ++
  [⟨field "max_iter", .nonZero, s.maxIter == 0⟩,
    ⟨field "max_time", .nonZero, s.maxTime.nanoseconds == 0⟩,
    ⟨field "tau_min", .insideUnit, !(decide (0.0 < s.tauMin) && decide (s.tauMin < 1.0))⟩,
    ⟨field "l_min", .nonNegative, refusesBelow 0.0 s.lMin⟩,
    ⟨field "l_max", .nonNegative, refusesBelow 0.0 s.lMax⟩,
    ⟨field "l_max", .atLeast "l_min", decide (s.lMax < s.lMin)⟩,
    ⟨field "fpr_shortcut_accept_factor", .belowOne,
      !(decide (0.0 ≤ s.fprShortcutAcceptFactor) && decide (s.fprShortcutAcceptFactor < 1.0))⟩,
    ⟨field "fpr_shortcut_history", .nonZero, s.fprShortcutHistory == 0⟩,
    ⟨field "quadratic_upperbound_tolerance_factor", .nonNegative,
      refusesBelow 0.0 s.quadraticUpperboundToleranceFactor⟩]

def LbfgsSettings.refusals (s : LbfgsSettings R) : List Refusal :=
  [⟨⟨.lbfgs, "memory"⟩, .nonZero, s.memory == 0⟩,
    ⟨⟨.lbfgs, "cbfgs.epsilon"⟩, .nonNegative, refusesBelow 0.0 s.cbfgs.epsilon⟩]

/-- The tests of all groups, in the order of the requirements. -/
def SolverSettings.refusals (s : SolverSettings R) : List Refusal :=
  s.outer.refusals ++ s.panoc.refusals ++ s.lbfgs.refusals

end Refusals

/-- The tests are for the requirements, one by one.  Each refuses exactly what its requirement does
not allow, as long as all requirements before it hold. -/
inductive Refusal.For : List Refusal → List Requirement → Prop
  | nil : For [] []
  | cons {t : Refusal} {r : Requirement} {ts : List Refusal} {rs : List Requirement}
      (field : t.field = r.field) (range : t.range = r.range) (opposite : t.refuses = !r.holds)
      (rest : r.holds = true → For ts rs) : For (t :: ts) (r :: rs)

namespace Refusal

theorem For.first_eq {ts : List Refusal} {rs : List Requirement} (tests : For ts rs) :
    first ts = Requirement.check rs := by
  induction tests with
  | nil => rfl
  | @cons t r ts rs field range opposite _ ih =>
      rw [first, Requirement.check, opposite, field, range]
      cases holds : r.holds with
      | true => exact ih holds
      | false => rfl

theorem For.append {ts us : List Refusal} {rs qs : List Requirement} (tests : For ts rs)
    (more : For us qs) : For (ts ++ us) (rs ++ qs) := by
  induction tests with
  | nil => exact more
  | cons field range opposite _ ih => exact .cons field range opposite ih

end Refusal

section Ordered

variable {R : Type} [Scalar R] [Ordered R] {a x : R}

theorem Scalar.number_zero : isNaN (0.0 : R) = false :=
  Scalar.isNaN_left (Scalar.le_of_lt Ordered.zero_lt_one)

/-- Between numbers the comparison the other way refuses what is not allowed. -/
theorem decide_lt_eq (ha : isNaN a = false) (hx : isNaN x = false) :
    decide (x < a) = !decide (a ≤ x) := by
  rw [← decide_not, decide_eq_decide]
  exact Scalar.lt_iff_not_le hx ha

theorem refusesBelow_eq (bound : isNaN a = false) : refusesBelow a x = !decide (a ≤ x) := by
  cases invalid : isNaN x with
  | true =>
      have incomparable : ¬ a ≤ x := fun le => by simp [Scalar.isNaN_right le] at invalid
      simp [refusesBelow, invalid, incomparable]
  | false => rw [refusesBelow, invalid, Bool.false_or, decide_lt_eq bound invalid]

theorem refusesUpTo_eq (bound : isNaN a = false) : refusesUpTo a x = !decide (a < x) := by
  cases invalid : isNaN x with
  | true =>
      have incomparable : ¬ a < x := fun less => by
        simp [Scalar.isNaN_right (Scalar.le_of_lt less)] at invalid
      simp [refusesUpTo, invalid, incomparable]
  | false => simp [refusesUpTo, invalid, Scalar.lt_iff_not_le bound invalid]

theorem refusesUpTo_zero (x : R) : refusesUpTo 0.0 x = !decide (0.0 < x) :=
  refusesUpTo_eq Scalar.number_zero

theorem refusesBelow_zero (x : R) : refusesBelow 0.0 x = !decide (0.0 ≤ x) :=
  refusesBelow_eq Scalar.number_zero

theorem OuterSettings.for_requirements (s : OuterSettings R) :
    Refusal.For s.refusals s.requirements := by
  have optional : s.initialPenalty.any (refusesUpTo 0.0) =
      !s.initialPenalty.all fun σ => decide (0.0 < σ) := by
    cases s.initialPenalty with
    | none => rfl
    | some σ => exact refusesUpTo_zero σ
  refine .cons rfl rfl (refusesUpTo_zero _) fun _ => ?delta
  refine .cons rfl rfl (refusesUpTo_zero _) fun _ => ?factor
  refine .cons rfl rfl (refusesUpTo_eq Scalar.number_one) fun _ => ?initial
  refine .cons rfl rfl optional fun _ => ?initialFactor
  refine .cons rfl rfl (refusesUpTo_zero _) fun _ => ?initialTolerance
  refine .cons rfl rfl (refusesUpTo_zero _) fun _ => ?toleranceFactor
  refine .cons rfl rfl rfl fun _ => ?threshold
  refine .cons rfl rfl rfl fun _ => ?multiplier
  refine .cons rfl rfl (refusesUpTo_zero _) fun _ => ?minPenalty
  refine .cons rfl rfl (refusesUpTo_zero _) fun positive => ?maxPenalty
  have least : isNaN s.minPenalty = false :=
    Scalar.isNaN_right (Scalar.le_of_lt (of_decide_eq_true positive))
  refine .cons rfl rfl (refusesBelow_eq least) fun _ => ?maxIter
  refine .cons rfl rfl (Bool.not_not _).symm fun _ => ?maxTime
  exact .cons rfl rfl (Bool.not_not _).symm fun _ => .nil

theorem LipschitzSettings.for_requirements (s : LipschitzSettings R) :
    Refusal.For s.refusals s.requirements := by
  refine .cons rfl rfl (refusesBelow_zero _) fun _ => ?epsilon
  refine .cons rfl rfl (refusesUpTo_zero _) fun _ => ?delta
  refine .cons rfl rfl (refusesUpTo_zero _) fun _ => ?lGammaFactor
  exact .cons rfl rfl rfl fun _ => .nil

theorem PanocSettings.for_requirements (s : PanocSettings R) :
    Refusal.For s.refusals s.requirements := by
  refine s.lipschitz.for_requirements.append ?_
  refine .cons rfl rfl (Bool.not_not _).symm fun _ => ?maxTime
  refine .cons rfl rfl (Bool.not_not _).symm fun _ => ?tauMin
  refine .cons rfl rfl rfl fun _ => ?lMin
  refine .cons rfl rfl (refusesBelow_zero _) fun least => ?lMax
  refine .cons rfl rfl (refusesBelow_zero _) fun most => ?ordered
  -- both have passed a comparison by now
  have lMin : isNaN s.lMin = false := Scalar.isNaN_right (of_decide_eq_true least)
  have lMax : isNaN s.lMax = false := Scalar.isNaN_right (of_decide_eq_true most)
  refine .cons rfl rfl (decide_lt_eq lMin lMax) fun _ => ?accept
  refine .cons rfl rfl rfl fun _ => ?history
  refine .cons rfl rfl (Bool.not_not _).symm fun _ => ?tolerance
  exact .cons rfl rfl (refusesBelow_zero _) fun _ => .nil

theorem LbfgsSettings.for_requirements (s : LbfgsSettings R) :
    Refusal.For s.refusals s.requirements := by
  refine .cons rfl rfl (Bool.not_not _).symm fun _ => ?epsilon
  exact .cons rfl rfl (refusesBelow_zero _) fun _ => .nil

theorem SolverSettings.for_requirements (s : SolverSettings R) :
    Refusal.For s.refusals s.requirements :=
  (s.outer.for_requirements.append s.panoc.for_requirements).append s.lbfgs.for_requirements

end Ordered

/-- Settings are accepted if all conditions hold.  Otherwise the field of the first that fails is
named, and tests that look for reasons to refuse come to the same. -/
theorem SolverSettings.check_names_first (s : SolverSettings Float) :
    (Requirement.check s.requirements = .ok () ↔ ∀ c ∈ s.conditions, c.holds) ∧
      (∀ name, (∃ v, Requirement.check s.requirements = .error v ∧ v.field.name = name) ↔
        FailsAt s.conditions name) ∧
      Refusal.first s.refusals = Requirement.check s.requirements := by
  have decides := s.decides_conditions
  refine ⟨Requirement.check_ok_iff decides, fun name => ?_, s.for_requirements.first_eq⟩
  exact Requirement.check_error_iff decides

example : Requirement.check { (SolverSettings.default : SolverSettings Float) with
    lbfgs.memory := 0, outer.delta := Scalar.nan }.requirements =
      .error ⟨⟨.outer, "delta"⟩, .positive⟩ := rfl

end AugmentedLagrangian

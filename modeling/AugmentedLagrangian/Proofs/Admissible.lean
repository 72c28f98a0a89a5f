/- # AugmentedLagrangian.Proofs.Admissible — what a solve may rely on

The checks at the start of a solve are a list of requirements, of which the first that fails is
named.  `OuterSettings.Admissible` says what holds when none fails, and `Loop.accept_eq_ok` says
that a solve starts exactly if that holds and the starting vectors have the lengths of the
constraints.

The settings of the inner solver are checked in the same way, and `SolverSettings.Admissible` says
what holds of all of them together.
-/
import AugmentedLagrangian.Outer.Loop

namespace AugmentedLagrangian

set_option autoImplicit false

theorem Requirement.check_eq_ok {rs : List Requirement} :
    Requirement.check rs = .ok () ↔ ∀ r ∈ rs, r.holds = true := by
  induction rs with
  | nil => simp [check]
  | cons r rs ih =>
      cases holds : r.holds with
      | true => simp [check, holds, ih]
      | false => simp [check, holds]

/-- What the checks demand of the settings of the outer loop. -/
structure OuterSettings.Admissible {R : Type} [Scalar R] (s : OuterSettings R) : Prop where
  epsilon : 0.0 < s.epsilon
  delta : 0.0 < s.delta
  penaltyUpdateFactor : 1.0 < s.penaltyUpdateFactor
  initialPenalty : ∀ σ ∈ s.initialPenalty, 0.0 < σ
  initialPenaltyFactor : 0.0 < s.initialPenaltyFactor
  initialTolerance : 0.0 < s.initialTolerance
  toleranceUpdateFactor : 0.0 < s.toleranceUpdateFactor ∧ s.toleranceUpdateFactor ≤ 1.0
  relPenaltyIncreaseThreshold :
    0.0 < s.relPenaltyIncreaseThreshold ∧ s.relPenaltyIncreaseThreshold < 1.0
  maxMultiplier : 0.0 < s.maxMultiplier
  minPenalty : 0.0 < s.minPenalty
  maxPenalty : s.minPenalty ≤ s.maxPenalty
  maxIter : s.maxIter ≠ 0
  maxTime : s.maxTime.nanoseconds ≠ 0

variable {R : Type} [Scalar R]

theorem OuterSettings.check_requirements {s : OuterSettings R} :
    Requirement.check s.requirements = .ok () ↔ s.Admissible := by
  rw [Requirement.check_eq_ok]
  constructor
  · intro holds
    simp only [requirements, List.forall_mem_cons, decide_eq_true_eq, Bool.and_eq_true,
      Option.all_eq_true, bne_iff_ne, ne_eq] at holds
    obtain ⟨epsilon, delta, factor, initial, initialFactor, initialTolerance, toleranceFactor,
      threshold, multiplier, least, most, iterations, time, -⟩ := holds
    exact ⟨epsilon, delta, factor, initial, initialFactor, initialTolerance, toleranceFactor,
      threshold, multiplier, least, most, iterations, time⟩
  · intro good
    simp only [requirements, List.forall_mem_cons, decide_eq_true_eq, Bool.and_eq_true,
      Option.all_eq_true, bne_iff_ne, ne_eq]
    exact ⟨good.epsilon, good.delta, good.penaltyUpdateFactor, good.initialPenalty,
      good.initialPenaltyFactor, good.initialTolerance, good.toleranceUpdateFactor,
      good.relPenaltyIncreaseThreshold, good.maxMultiplier, good.minPenalty, good.maxPenalty,
      good.maxIter, good.maxTime, List.forall_mem_nil _⟩

/-- What the checks demand of the settings of the first step size. -/
structure LipschitzSettings.Admissible (s : LipschitzSettings R) : Prop where
  l0 : 0.0 ≤ s.l0
  epsilon : 0.0 < s.epsilon
  delta : 0.0 < s.delta
  lGammaFactor : 0.0 < s.lGammaFactor ∧ s.lGammaFactor < 1.0

/-- What the checks demand of the settings of the inner iteration. -/
structure PanocSettings.Admissible (s : PanocSettings R) : Prop where
  lipschitz : s.lipschitz.Admissible
  maxIter : s.maxIter ≠ 0
  maxTime : s.maxTime.nanoseconds ≠ 0
  tauMin : 0.0 < s.tauMin ∧ s.tauMin < 1.0
  lMin : 0.0 ≤ s.lMin
  lMax : 0.0 ≤ s.lMax ∧ s.lMin ≤ s.lMax
  fprShortcutAcceptFactor : 0.0 ≤ s.fprShortcutAcceptFactor ∧ s.fprShortcutAcceptFactor < 1.0
  fprShortcutHistory : s.fprShortcutHistory ≠ 0
  quadraticUpperboundToleranceFactor : 0.0 ≤ s.quadraticUpperboundToleranceFactor

/-- What the checks demand of the settings of the direction.  The power `alpha` is not checked. -/
structure LbfgsSettings.Admissible (s : LbfgsSettings R) : Prop where
  memory : s.memory ≠ 0
  epsilon : 0.0 ≤ s.cbfgs.epsilon

/-- What the checks demand of all settings. -/
structure SolverSettings.Admissible (s : SolverSettings R) : Prop where
  outer : s.outer.Admissible
  panoc : s.panoc.Admissible
  lbfgs : s.lbfgs.Admissible

theorem LipschitzSettings.holds_requirements {s : LipschitzSettings R} :
    (∀ r ∈ s.requirements, r.holds = true) ↔ s.Admissible := by
  simp only [requirements, List.forall_mem_cons, decide_eq_true_eq, Bool.and_eq_true]
  constructor
  · rintro ⟨l0, epsilon, delta, factor, -⟩
    exact ⟨l0, epsilon, delta, factor⟩
  · intro good
    exact ⟨good.l0, good.epsilon, good.delta, good.lGammaFactor, List.forall_mem_nil _⟩

theorem PanocSettings.holds_requirements {s : PanocSettings R} :
    (∀ r ∈ s.requirements, r.holds = true) ↔ s.Admissible := by
  rw [requirements, List.forall_mem_append, LipschitzSettings.holds_requirements]
  simp only [List.forall_mem_cons, decide_eq_true_eq, Bool.and_eq_true, bne_iff_ne, ne_eq]
  constructor
  · rintro ⟨lipschitz, iterations, time, tau, least, most, ordered, accept, history, tolerance, -⟩
    exact ⟨lipschitz, iterations, time, tau, least, ⟨most, ordered⟩, accept, history, tolerance⟩
  · intro good
    exact ⟨good.lipschitz, good.maxIter, good.maxTime, good.tauMin, good.lMin, good.lMax.1,
      good.lMax.2, good.fprShortcutAcceptFactor, good.fprShortcutHistory,
      good.quadraticUpperboundToleranceFactor, List.forall_mem_nil _⟩

theorem LbfgsSettings.holds_requirements {s : LbfgsSettings R} :
    (∀ r ∈ s.requirements, r.holds = true) ↔ s.Admissible := by
  simp only [requirements, List.forall_mem_cons, decide_eq_true_eq, bne_iff_ne, ne_eq]
  constructor
  · rintro ⟨memory, epsilon, -⟩
    exact ⟨memory, epsilon⟩
  · intro good
    exact ⟨good.memory, good.epsilon, List.forall_mem_nil _⟩

/-- Settings are accepted if all groups are admissible, and no others are. -/
theorem SolverSettings.check_requirements {s : SolverSettings R} :
    Requirement.check s.requirements = .ok () ↔ s.Admissible := by
  rw [Requirement.check_eq_ok, requirements, List.forall_mem_append, List.forall_mem_append,
    ← Requirement.check_eq_ok, OuterSettings.check_requirements, PanocSettings.holds_requirements,
    LbfgsSettings.holds_requirements]
  constructor
  · rintro ⟨⟨outer, panoc⟩, lbfgs⟩
    exact ⟨outer, panoc, lbfgs⟩
  · intro good
    exact ⟨⟨good.outer, good.panoc⟩, good.lbfgs⟩

/-- A solve starts with admissible settings and starting vectors of the right lengths, and with
nothing else. -/
theorem Loop.accept_eq_ok {s : OuterSettings R} {c : Constraints R} {x y : List R} :
    Loop.accept s c x y = .ok () ↔ s.Admissible ∧ x.length = c.n ∧ y.length = c.m := by
  rw [← OuterSettings.check_requirements, Loop.accept]
  rcases checked : Requirement.check s.requirements with e | ⟨⟩
  · simp
  · by_cases hx : x.length = c.n
    · by_cases hy : y.length = c.m
      · simp [hx, hy]
      · simp [hx, hy]
    · simp [hx]

end AugmentedLagrangian

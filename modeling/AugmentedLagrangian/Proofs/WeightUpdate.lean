/- # AugmentedLagrangian.Proofs.WeightUpdate — one update of the weights, entry by entry

An update leaves early when the violation is small, treats all weights as one when there is to be a
single one, and else treats each by itself.  On vectors of one length these are one formula per entry
(`Weights.update_ofFn`): a weight that `rises` is multiplied by its `scale` and capped, and any other
is kept.

A scale is at least one whatever the violation is, infinite or no number included, since the larger of
two values passes over what is no number.  So weights up to the cap rise to weights up to the cap
(`Weights.Raised`).  In exact arithmetic a scale is also at most the factor if the norm bounds the
entry; there the quotient `∞ / ∞` is no number, and the scale is one.
-/
import AugmentedLagrangian.Proofs.Double
import AugmentedLagrangian.Proofs.MeritDistance
import AugmentedLagrangian.Proofs.Renumbering
import AugmentedLagrangian.Proofs.WeightProgress

namespace AugmentedLagrangian

set_option autoImplicit false
set_option linter.unusedSectionVars false

open Scalar (isNaN larger smaller magnitude Ordered Growing)

/-! ## The formula of an entry -/

namespace Weights

section Entries

variable {R : Type} [Scalar R] {m : Nat}

/-- What a weight that rises is multiplied by. -/
def scale (s : OuterSettings R) (factor normE e : R) : R :=
  if s.singlePenaltyFactor then factor else larger (factor * magnitude e / normE) 1.0

/-- Whether a weight rises.  A single one is told by the norms, and others by their own entries. -/
def rises (s : OuterSettings R) (first : Bool) (normE oldNormE e old : R) : Bool :=
  !decide (normE ≤ s.delta) &&
    if s.singlePenaltyFactor then
      first || decide (s.relPenaltyIncreaseThreshold * oldNormE < normE)
    else growsFrom s first e old

/-- The weight of a constraint after an update. -/
def entry (s : OuterSettings R) (factor : R) (first : Bool) (normE oldNormE e old weight : R) : R :=
  if rises s first normE oldNormE e old then
    smaller s.maxPenalty (scale s factor normE e * weight)
  else weight

theorem overwriteAll_ofFn (values buffer : Fin m → R) :
    overwriteAll (List.ofFn values) (List.ofFn buffer) = .done (List.ofFn values) () := by
  rw [overwriteAll, if_pos (by simp)]

/-- An update goes entry by entry.  A single weight has to exist and to be shared. -/
theorem update_ofFn (s : OuterSettings R) (factor : R) (first : Bool) (normE oldNormE : R)
    (e old : Fin m → R) {weights : Fin m → R} (buffer : Fin m → R)
    (shared : s.singlePenaltyFactor = true → m ≠ 0 ∧ ∀ i j, weights i = weights j) :
    update s factor first (List.ofFn e) (List.ofFn old) normE oldNormE (List.ofFn weights)
        (List.ofFn buffer) =
      .done (List.ofFn fun i => entry s factor first normE oldNormE (e i) (old i) (weights i)) () := by
  by_cases small : normE ≤ s.delta
  · have settled : update s factor first (.ofFn e) (.ofFn old) normE oldNormE (.ofFn weights)
        (.ofFn buffer) = overwriteAll (.ofFn weights) (.ofFn buffer) := if_pos small
    rw [settled, overwriteAll_ofFn]
    simp [entry, rises, small]
  cases single : s.singlePenaltyFactor with
  | false =>
      rw [update_of_each small single, growEach?_ofFn]
      simp [entry, rises, scale, grown, small, single]
  | true =>
      rw [update_of_single small single]
      by_cases grows :
        (first || decide (s.relPenaltyIncreaseThreshold * oldNormE < normE)) = true
      · obtain ⟨some, same⟩ := shared single
        obtain ⟨n, rfl⟩ := Nat.exists_eq_succ_of_ne_zero some
        rw [if_pos grows, List.ofFn_succ]
        simp only [fill_eq_replicate, List.length_ofFn, entry, rises, scale, single, grows, small,
          decide_false, Bool.not_false, Bool.and_self, if_true, same _ 0, List.ofFn_const]
      · rw [if_neg grows, overwriteAll_ofFn]
        simp only [Bool.not_eq_true] at grows
        simp [entry, rises, single, grows]

theorem one_le_scale [Ordered R] {s : OuterSettings R} {factor : R} (more : 1.0 < factor)
    (normE e : R) : 1.0 ≤ scale s factor normE e := by
  unfold scale
  split
  · exact Scalar.le_of_lt more
  · exact Scalar.le_larger_right Scalar.number_one

theorem entry_grows [Ordered R] {s : OuterSettings R} {factor : R} (more : 1.0 < factor)
    (first : Bool) (normE oldNormE e old weight : R) :
    Grows s weight (entry s factor first normE oldNormE e old weight) := by
  unfold entry
  split
  · exact .scaled (one_le_scale more normE e)
  · exact .kept

theorem entry_of_small {s : OuterSettings R} {normE : R} (small : normE ≤ s.delta) (factor : R)
    (first : Bool) (oldNormE e old weight : R) :
    entry s factor first normE oldNormE e old weight = weight := by
  rw [entry, rises, decide_eq_true small, Bool.not_true, Bool.false_and, if_neg Bool.false_ne_true]

/-- Past the first iteration, a weight of its own changes only if its violation did not shrink. -/
theorem lt_of_entry_ne {s : OuterSettings R} {factor normE oldNormE e old weight : R}
    (each : s.singlePenaltyFactor = false)
    (changed : entry s factor false normE oldNormE e old weight ≠ weight) :
    s.relPenaltyIncreaseThreshold * magnitude old < magnitude e := by
  by_contra shrunk
  apply changed
  rw [entry, rises, each, if_neg Bool.false_ne_true, growsFrom, decide_eq_false shrunk]
  simp

end Entries

/-! ## Exact arithmetic -/

section Exactly

variable {K : Type} [Field K] [LinearOrder K] [IsStrictOrderedRing K]

/-- What is over infinity does not raise a scale. -/
theorem larger_mul_zero (a : Exact K) : larger (a * .fin 0) 1.0 = 1.0 := by
  have infinite : larger (Exact.infinite (0 : K)) 1.0 = 1.0 := by
    rw [Exact.infinite, if_neg (lt_irrefl 0), if_neg (lt_irrefl 0)]
    rfl
  cases a with
  | nan => rfl
  | negInf =>
      show larger (Exact.infinite (-0 : K)) 1.0 = 1.0
      rw [neg_zero, infinite]
  | posInf => exact infinite
  | fin a => rw [Exact.fin_mul, mul_zero, Exact.one_eq, Exact.larger_fin, max_eq_right zero_le_one]

/-- A violation within the norm scales its weight by at most the factor. -/
theorem share_le {factor normE v : Exact K} (more : 1.0 < factor) (positive : 0.0 < normE)
    (near : magnitude v ≤ normE) : larger (factor * magnitude v / normE) 1.0 ≤ factor := by
  have least : 1.0 ≤ larger (factor * magnitude v / normE) 1.0 :=
    Scalar.le_larger_right Scalar.number_one
  rcases Exact.pos_cases (Scalar.pos_of_one_le (Scalar.le_of_lt more)) with ⟨d, pos, rfl⟩ | rfl
  · rcases Exact.pos_cases positive with ⟨n, hn, rfl⟩ | rfl
    · obtain ⟨x, rfl⟩ : ∃ x : K, v = .fin x := by
        cases v with
        | fin x => exact ⟨x, rfl⟩
        | _ => exact near.elim
      rw [Exact.magnitude_fin, Exact.fin_le] at near
      refine Scalar.larger_le ?_ (Scalar.le_of_lt more)
      rw [Exact.magnitude_fin, Exact.fin_mul, Exact.fin_div _ hn.ne', Exact.fin_le,
        div_le_iff₀ hn]
      exact mul_le_mul_of_nonneg_left near pos.le
    · -- over an infinite norm the share is zero or no number
      show larger (.fin d * magnitude v * .fin 0) 1.0 ≤ .fin d
      rw [larger_mul_zero]
      exact Scalar.le_of_lt more
  · exact Exact.le_posInf (Exact.isNaN_eq_false.1 (Scalar.isNaN_right least))

theorem scale_le {s : OuterSettings (Exact K)} (good : s.Admissible) {factor normE v : Exact K}
    (more : 1.0 < factor) (large : ¬ normE ≤ s.delta) (near : magnitude v ≤ normE) :
    scale s factor normE v ≤ factor := by
  unfold scale
  split
  · exact Scalar.le_refl_of_number (Scalar.isNaN_right (Scalar.le_of_lt more))
  · have delta := Scalar.le_of_lt good.delta
    have beyond := (Scalar.lt_iff_not_le (Scalar.isNaN_right delta) (Scalar.isNaN_right near)).2 large
    exact share_le more (Scalar.lt_of_le_of_lt delta beyond) near

/-- A positive weight grows with its scale. -/
theorem mul_le_mul_weight {a b weight : Exact K} (least : 1.0 ≤ a) (le : a ≤ b)
    (positive : 0.0 < weight) : a * weight ≤ b * weight := by
  have ha := Scalar.pos_of_one_le least
  have number := Exact.isNaN_eq_false.1 (Scalar.isNaN_right (Growing.le_scaled least positive))
  rcases Exact.pos_cases positive with ⟨w, pos, rfl⟩ | rfl
  · rcases Exact.pos_cases (Scalar.lt_of_lt_of_le ha le) with ⟨b, -, rfl⟩ | rfl
    · rcases Exact.pos_cases ha with ⟨a, -, rfl⟩ | rfl
      · exact mul_le_mul_of_nonneg_right le pos.le
      · exact le.elim
    · rw [Exact.posInf_mul positive]
      exact Exact.le_posInf number
  · rw [Exact.mul_posInf (Scalar.lt_of_lt_of_le ha le)]
    exact Exact.le_posInf number

/-- No entry rises beyond the factor if the norm bounds its violation. -/
theorem entry_le {s : OuterSettings (Exact K)} (good : s.Admissible) {factor normE v : Exact K}
    (more : 1.0 < factor) (near : magnitude v ≤ normE) (first : Bool) (oldNormE old : Exact K)
    {weight : Exact K} (positive : 0.0 < weight) :
    entry s factor first normE oldNormE v old weight ≤ factor * weight := by
  unfold entry
  split
  · rename_i rising
    have large : ¬ normE ≤ s.delta := by
      intro small
      rw [rises, decide_eq_true small] at rising
      cases rising
    have least : 1.0 ≤ scale s factor normE v := one_le_scale more normE v
    have number := Scalar.isNaN_right (Growing.le_scaled least positive)
    exact Scalar.le_trans (Scalar.smaller_le_right number)
      (mul_le_mul_weight least (scale_le good more large near) positive)
  · exact Growing.le_scaled (Scalar.le_of_lt more) positive

end Exactly

/-! ## The whole update -/

section Update

variable {R : Type} [Scalar R]

/-- What an update expects: settings that pass the checks, a factor above one, vectors of one length
and positive weights up to the cap, of which there is one for all if there is to be a single one. -/
structure Regular (s : OuterSettings R) (factor : R) (e old weights buffer : List R) : Prop where
  accepted : Requirement.check s.requirements = .ok ()
  more : 1.0 < factor
  lengths : old.length = e.length ∧ weights.length = e.length ∧ buffer.length = e.length
  within : ∀ weight ∈ weights, 0.0 < weight ∧ weight ≤ s.maxPenalty
  shared : s.singlePenaltyFactor = true → weights ≠ [] ∧ Uniform weights

/-- What an update after the violation `e`, of norm `normE`, makes of the weights. -/
structure Raised (s : OuterSettings R) (first : Bool) (e old : List R) (normE : R)
    (weights kept : List R) : Prop where
  within : List.Forall₂ (fun weight weight' =>
    weight ≤ weight' ∧ weight' ≤ s.maxPenalty ∧ isNaN weight' = false) weights kept
  settled : normE ≤ s.delta → kept = weights
  lasting : s.singlePenaltyFactor = false → first = false → ∀ {i : Nat} {v v' : R},
    e[i]? = some v → old[i]? = some v' → kept[i]? ≠ weights[i]? →
      s.relPenaltyIncreaseThreshold * magnitude v' < magnitude v

namespace Regular

variable {s : OuterSettings R} {factor : R}

theorem good {e old weights buffer : List R} (regular : Regular s factor e old weights buffer) :
    s.Admissible :=
  OuterSettings.check_requirements.1 regular.accepted

/-- The vectors have as many entries as one another. -/
theorem exists_entries {e old weights buffer : List R}
    (regular : Regular s factor e old weights buffer) :
    ∃ (m : Nat) (es olds σs slots : Fin m → R), e = .ofFn es ∧ old = .ofFn olds ∧
      weights = .ofFn σs ∧ buffer = .ofFn slots := by
  obtain ⟨ho, hσ, hb⟩ := regular.lengths
  obtain ⟨es, he⟩ := exists_ofFn (rfl : e.length = e.length)
  obtain ⟨olds, ho⟩ := exists_ofFn ho
  obtain ⟨σs, hσ⟩ := exists_ofFn hσ
  obtain ⟨slots, hb⟩ := exists_ofFn hb
  exact ⟨_, es, olds, σs, slots, he, ho, hσ, hb⟩

variable {m : Nat} {e old weights buffer : Fin m → R}
  (regular : Regular s factor (.ofFn e) (.ofFn old) (.ofFn weights) (.ofFn buffer))

include regular

theorem update_eq (first : Bool) (normE oldNormE : R) :
    update s factor first (.ofFn e) (.ofFn old) normE oldNormE (.ofFn weights) (.ofFn buffer) =
      .done (.ofFn fun i => entry s factor first normE oldNormE (e i) (old i) (weights i)) () := by
  refine update_ofFn s factor first normE oldNormE e old buffer fun single => ?_
  obtain ⟨some, weight, same⟩ := regular.shared single
  refine ⟨fun none => some (by subst none; rfl), fun i j => ?_⟩
  rw [List.length_ofFn, ← List.ofFn_const] at same
  have each := congrFun (List.ofFn_injective same)
  rw [each i, each j]

theorem raised [Growing R] (first : Bool) (normE oldNormE : R) :
    Raised s first (.ofFn e) (.ofFn old) normE (.ofFn weights)
      (.ofFn fun i => entry s factor first normE oldNormE (e i) (old i) (weights i)) where
  within := by
    rw [forall₂_ofFn]
    intro i
    obtain ⟨positive, capped⟩ := List.forall_mem_ofFn_iff.1 regular.within i
    have grows := entry_grows (s := s) regular.more first normE oldNormE (e i) (old i) (weights i)
    have rises := grows.rises positive capped
    exact ⟨rises, grows.capped capped, Scalar.isNaN_right rises⟩
  settled small := by simp only [entry_of_small small]
  lasting each later i v v' violation before changed := by
    subst later
    obtain ⟨inside, rfl⟩ := List.getElem?_eq_some_iff.1 violation
    obtain ⟨_, rfl⟩ := List.getElem?_eq_some_iff.1 before
    rw [List.length_ofFn] at inside
    simp only [List.getElem?_ofFn, inside, dite_true, ne_eq, Option.some.injEq] at changed
    simp only [List.getElem_ofFn]
    exact lt_of_entry_ne each changed

end Regular

end Update

/-- One update raises weights within the cap, whatever the violations and their norms are, and in
exact arithmetic by no more than the factor. -/
theorem update_raises :
    (∀ {R : Type} [Scalar R] [Growing R] {s : OuterSettings R} {factor : R}
        {e old weights buffer : List R}, Regular s factor e old weights buffer →
      ∀ (first : Bool) (normE oldNormE : R),
        ∃ kept, update s factor first e old normE oldNormE weights buffer = .done kept () ∧
          Raised s first e old normE weights kept) ∧
      ∀ {K : Type} [Field K] [LinearOrder K] [IsStrictOrderedRing K]
        {s : OuterSettings (Exact K)} {factor : Exact K} {e old weights buffer : List (Exact K)},
        Regular s factor e old weights buffer →
        ∀ (first : Bool) (normE oldNormE : Exact K), (∀ v ∈ e, magnitude v ≤ normE) →
        ∃ kept, update s factor first e old normE oldNormE weights buffer = .done kept () ∧
          List.Forall₂ (fun weight weight' => weight' ≤ factor * weight) weights kept := by
  constructor
  · intro R _ _ s factor e old weights buffer regular first normE oldNormE
    obtain ⟨m, e, old, weights, buffer, rfl, rfl, rfl, rfl⟩ := regular.exists_entries
    exact ⟨_, regular.update_eq first normE oldNormE, regular.raised first normE oldNormE⟩
  · intro K _ _ _ s factor e old weights buffer regular first normE oldNormE near
    obtain ⟨m, e, old, weights, buffer, rfl, rfl, rfl, rfl⟩ := regular.exists_entries
    refine ⟨_, regular.update_eq first normE oldNormE, (forall₂_ofFn _ _).2 fun i => ?_⟩
    obtain ⟨positive, -⟩ := List.forall_mem_ofFn_iff.1 regular.within i
    exact entry_le regular.good regular.more (List.forall_mem_ofFn_iff.1 near i) first oldNormE
      (old i) positive

/-- The quotient of two infinities leaves a weight as it is, in double precision and exactly; and a
violation of half the norm scales its weight by half the factor. -/
theorem update_raises_two :
    Raised (.default : OuterSettings Float) true [Scalar.infinity, Scalar.nan] [0.0, 0.0]
        Scalar.infinity [2.0, 3.0] [2.0, 3.0] ∧
      update (.default : OuterSettings (Exact ℚ)) 10.0 false [1.0, 0.5] [1.0, 1.0] 1.0 1.0
        [2.0, 3.0] [0.0, 0.0] = .done [20.0, 15.0] () ∧
      List.Forall₂ (fun weight weight' : Exact ℚ => weight' ≤ 10.0 * weight) [2.0, 3.0]
        [20.0, 15.0] := by
  have float : Regular (.default : OuterSettings Float) 10.0 [Scalar.infinity, Scalar.nan]
      [0.0, 0.0] [2.0, 3.0] [0.0, 0.0] :=
    ⟨by decide +kernel, by decide +kernel, ⟨rfl, rfl, rfl⟩, by decide +kernel, nofun⟩
  have exact : Regular (.default : OuterSettings (Exact ℚ)) 10.0 [1.0, 0.5] [1.0, 1.0] [2.0, 3.0]
      [0.0, 0.0] :=
    ⟨by decide +kernel, by decide +kernel, ⟨rfl, rfl, rfl⟩, by decide +kernel, nofun⟩
  have scaled : (update (.default : OuterSettings (Exact ℚ)) 10.0 false [1.0, 0.5] [1.0, 1.0] 1.0
      1.0 [2.0, 3.0] [0.0, 0.0]).kept = [20.0, 15.0] := by
    decide +kernel
  obtain ⟨kept, updated, raised⟩ := update_raises.1 float true Scalar.infinity Scalar.infinity
  obtain rfl : [2.0, 3.0] = kept := congrArg Written.kept updated
  obtain ⟨kept, updated, bounded⟩ := update_raises.2 exact false 1.0 1.0 (by decide +kernel)
  rw [updated] at scaled
  obtain rfl : kept = [20.0, 15.0] := scaled
  exact ⟨raised, updated, bounded⟩

end Weights

end AugmentedLagrangian

/- # AugmentedLagrangian.Proofs.Order — comparing values of which some are no number

A `Scalar` has no laws.  `Scalar.Ordered` adds those of comparison that double precision and exact
arithmetic share: a comparison with a value that is no number is false, and all other values stand
in a line, where infinities are ends and two zeros may share a place.  `Scalar.Growing` adds that a
positive value does not shrink when it is scaled by one or more, however the product is rounded, and
`Scalar.Signed` that what negation makes of a positive value is at most zero.

From these follows what `larger` and `smaller` guarantee.  Each passes over an operand that is no
number, so the bound that they give on one side needs a number there and nothing on the other.
`pin`, which is made of both, puts a number into one of three places (`pin_cases`); where it
stands to any other value follows (`le_pin_iff`, `pin_le_iff`).
-/
import AugmentedLagrangian.Scalar

namespace AugmentedLagrangian.Scalar

set_option autoImplicit false

/-- Comparison is false of what is no number and puts all other values in a line. -/
class Ordered (R : Type) [Scalar R] : Prop where
  numbers_of_le : ∀ {a b : R}, a ≤ b → isNaN a = false ∧ isNaN b = false
  le_or_le : ∀ {a b : R}, isNaN a = false → isNaN b = false → a ≤ b ∨ b ≤ a
  le_of_le_of_le : ∀ {a b c : R}, a ≤ b → b ≤ c → a ≤ c
  lt_iff : ∀ {a b : R}, a < b ↔ a ≤ b ∧ ¬ b ≤ a
  zero_lt_one : (0.0 : R) < 1.0

/-- A positive value does not shrink when it is scaled by one or more. -/
class Growing (R : Type) [Scalar R] : Prop extends Ordered R where
  le_scaled : ∀ {s w : R}, 1.0 ≤ s → 0.0 < w → w ≤ s * w

/-- The negative of a positive value is at most zero. -/
class Signed (R : Type) [Scalar R] : Prop extends Ordered R where
  neg_le_zero : ∀ {a : R}, 0.0 < a → -a ≤ 0.0

section Ordered

variable {R : Type} [Scalar R] [Ordered R] {a b c : R}

theorem isNaN_left (h : a ≤ b) : isNaN a = false :=
  (Ordered.numbers_of_le h).1

theorem isNaN_right (h : a ≤ b) : isNaN b = false :=
  (Ordered.numbers_of_le h).2

theorem le_refl_of_number (number : isNaN a = false) : a ≤ a :=
  (Ordered.le_or_le number number).elim id id

theorem le_trans (h₁ : a ≤ b) (h₂ : b ≤ c) : a ≤ c :=
  Ordered.le_of_le_of_le h₁ h₂

theorem le_of_lt (h : a < b) : a ≤ b :=
  (Ordered.lt_iff.1 h).1

theorem not_le_of_lt (h : a < b) : ¬ b ≤ a :=
  (Ordered.lt_iff.1 h).2

theorem lt_of_lt_of_le (h₁ : a < b) (h₂ : b ≤ c) : a < c := by
  refine Ordered.lt_iff.2 ⟨le_trans (le_of_lt h₁) h₂, fun back => ?_⟩
  exact not_le_of_lt h₁ (le_trans h₂ back)

theorem le_of_not_lt (ha : isNaN a = false) (hb : isNaN b = false) (h : ¬ a < b) : b ≤ a := by
  rcases Ordered.le_or_le ha hb with le | le
  · exact Decidable.byContradiction fun back => h (Ordered.lt_iff.2 ⟨le, back⟩)
  · exact le

theorem lt_iff_not_le (ha : isNaN a = false) (hb : isNaN b = false) : a < b ↔ ¬ b ≤ a := by
  refine ⟨not_le_of_lt, fun above => Ordered.lt_iff.2 ⟨?_, above⟩⟩
  exact (Ordered.le_or_le ha hb).resolve_right above

theorem lt_of_le_of_lt (h₁ : a ≤ b) (h₂ : b < c) : a < c := by
  refine Ordered.lt_iff.2 ⟨le_trans h₁ (le_of_lt h₂), fun back => ?_⟩
  exact not_le_of_lt h₂ (le_trans back h₁)

theorem number_one : isNaN (1.0 : R) = false :=
  isNaN_right (le_of_lt Ordered.zero_lt_one)

theorem zero_le_zero : (0.0 : R) ≤ 0.0 :=
  le_refl_of_number (isNaN_left (le_of_lt Ordered.zero_lt_one))

theorem zero_le_one : (0.0 : R) ≤ 1.0 :=
  le_of_lt Ordered.zero_lt_one

theorem neg_one_le_zero [Signed R] : (-1.0 : R) ≤ 0.0 :=
  Signed.neg_le_zero Ordered.zero_lt_one

theorem neg_one_le_one [Signed R] : (-1.0 : R) ≤ 1.0 :=
  le_trans neg_one_le_zero zero_le_one

theorem pos_of_one_le (least : 1.0 ≤ a) : 0.0 < a :=
  lt_of_lt_of_le Ordered.zero_lt_one least

omit [Ordered R] in
theorem isFinite_iff : isFinite a = true ↔ -infinity < a ∧ a < infinity := by
  rw [isFinite, Bool.and_eq_true, decide_eq_true_iff, decide_eq_true_iff]

theorem number_of_isFinite (finite : isFinite a = true) : isNaN a = false :=
  isNaN_left (le_of_lt (isFinite_iff.1 finite).2)

/-! ## The larger and the smaller of two -/

theorem le_larger_left (ha : isNaN a = false) : a ≤ larger a b := by
  unfold larger
  rw [ha, if_neg Bool.false_ne_true]
  split
  · exact le_refl_of_number ha
  · split
    · rename_i h
      exact le_of_lt h
    · exact le_refl_of_number ha

theorem le_larger_right (hb : isNaN b = false) : b ≤ larger a b := by
  unfold larger
  split
  · exact le_refl_of_number hb
  · rename_i ha
    rw [hb, if_neg Bool.false_ne_true]
    split
    · exact le_refl_of_number hb
    · rename_i h
      exact le_of_not_lt (by simpa using ha) hb h

theorem larger_eq_left (le : b ≤ a) : larger a b = a := by
  have least : ¬ a < b := fun less => not_le_of_lt less le
  rw [larger, isNaN_right le, isNaN_left le, if_neg Bool.false_ne_true, if_neg Bool.false_ne_true,
    if_neg least]

theorem smaller_le_left (ha : isNaN a = false) : smaller a b ≤ a := by
  unfold smaller
  rw [ha, if_neg Bool.false_ne_true]
  split
  · exact le_refl_of_number ha
  · split
    · rename_i h
      exact le_of_lt h
    · exact le_refl_of_number ha

theorem smaller_le_right (hb : isNaN b = false) : smaller a b ≤ b := by
  unfold smaller
  split
  · exact le_refl_of_number hb
  · rename_i ha
    rw [hb, if_neg Bool.false_ne_true]
    split
    · exact le_refl_of_number hb
    · rename_i h
      exact le_of_not_lt hb (by simpa using ha) h

theorem smaller_eq_left (le : a ≤ b) : smaller a b = a := by
  have most : ¬ b < a := fun less => not_le_of_lt less le
  rw [smaller, isNaN_left le, isNaN_right le, if_neg Bool.false_ne_true, if_neg Bool.false_ne_true,
    if_neg most]

omit [Ordered R] in
theorem le_smaller (h₁ : c ≤ a) (h₂ : c ≤ b) : c ≤ smaller a b := by
  unfold smaller
  repeat' split
  all_goals assumption

omit [Ordered R] in
theorem larger_le (h₁ : a ≤ c) (h₂ : b ≤ c) : larger a b ≤ c := by
  unfold larger
  repeat' split
  all_goals assumption

omit [Ordered R] in
theorem lt_smaller (h₁ : c < a) (h₂ : c < b) : c < smaller a b := by
  unfold smaller
  repeat' split
  all_goals assumption

omit [Ordered R] in
theorem number_larger (ha : isNaN a = false) : isNaN (larger a b) = false := by
  unfold larger
  rw [ha, if_neg Bool.false_ne_true]
  split
  · exact ha
  · rename_i hb
    split
    · exact Bool.eq_false_iff.2 hb
    · exact ha

omit [Ordered R] in
theorem number_smaller (ha : isNaN a = false) : isNaN (smaller a b) = false := by
  unfold smaller
  rw [ha, if_neg Bool.false_ne_true]
  split
  · exact ha
  · rename_i hb
    split
    · exact Bool.eq_false_iff.2 hb
    · exact ha

/-! ## Vectors of numbers -/

/-- All entries are numbers. -/
def Numbers {R : Type} [Scalar R] (xs : List R) : Prop :=
  ∀ x ∈ xs, isNaN x = false

omit [Ordered R] in
theorem numbers_append {xs ys : List R} : Numbers (xs ++ ys) ↔ Numbers xs ∧ Numbers ys :=
  List.forall_mem_append

/-! ## Moving a value between bounds -/

omit [Ordered R] in
/-- A number is moved to a number, and what is no number is not moved. -/
theorem isNaN_pin (lo hi x : R) : isNaN (pin lo hi x) = isNaN x := by
  cases nan : isNaN x with
  | false =>
      rw [pin, nan, if_neg Bool.false_ne_true]
      exact number_smaller (number_larger nan)
  | true => rw [pin, nan, if_pos rfl, nan]

omit [Ordered R] in
theorem number_of_pin {lo hi x : R} (number : isNaN (pin lo hi x) = false) : isNaN x = false :=
  (isNaN_pin lo hi x).symm.trans number

/-- A number below the bounds is moved to the lower, one above them to the upper, and one between
them stays. -/
theorem pin_cases {lo hi x : R} (ordered : lo ≤ hi) (number : isNaN x = false) :
    (x < lo ∧ pin lo hi x = lo) ∨ (lo ≤ x ∧ x ≤ hi ∧ pin lo hi x = x) ∨
      (hi < x ∧ pin lo hi x = hi) := by
  have hlo := isNaN_left ordered
  have hhi := isNaN_right ordered
  by_cases below : x < lo
  · have within : ¬ hi < lo := fun back => not_le_of_lt back ordered
    exact .inl ⟨below, by simp [pin, larger, smaller, number, hlo, hhi, below, within]⟩
  · by_cases above : hi < x
    · exact .inr (.inr ⟨above, by simp [pin, larger, smaller, number, hlo, hhi, below, above]⟩)
    · exact .inr (.inl ⟨le_of_not_lt number hlo below, le_of_not_lt hhi number above,
        by simp [pin, larger, smaller, number, hlo, hhi, below, above]⟩)

theorem pin_within {lo hi x : R} (ordered : lo ≤ hi) (number : isNaN x = false) :
    lo ≤ pin lo hi x ∧ pin lo hi x ≤ hi := by
  rcases pin_cases ordered number with ⟨-, same⟩ | ⟨above, below, same⟩ | ⟨-, same⟩
  all_goals rw [same]
  · exact ⟨le_refl_of_number (isNaN_left ordered), ordered⟩
  · exact ⟨above, below⟩
  · exact ⟨ordered, le_refl_of_number (isNaN_right ordered)⟩

/-- What is at most the value that a number is moved to is at most the upper bound, and at most the
number unless it is at most the lower bound. -/
theorem le_pin_iff {lo hi x : R} (ordered : lo ≤ hi) (number : isNaN x = false) :
    a ≤ pin lo hi x ↔ a ≤ hi ∧ (a ≤ x ∨ a ≤ lo) := by
  rcases pin_cases ordered number with ⟨below, same⟩ | ⟨above, below, same⟩ | ⟨above, same⟩
  all_goals
    rw [same]
    constructor
  · intro le
    exact ⟨le_trans le ordered, .inr le⟩
  · rintro ⟨-, le | le⟩
    · exact le_trans le (le_of_lt below)
    · exact le
  · intro le
    exact ⟨le_trans le below, .inl le⟩
  · rintro ⟨-, le | le⟩
    · exact le
    · exact le_trans le above
  · intro le
    exact ⟨le, .inl (le_trans le (le_of_lt above))⟩
  · exact And.left

/-- What is at least the value that a number is moved to is at least the lower bound, and at least
the number unless it is at least the upper bound. -/
theorem pin_le_iff {lo hi x : R} (ordered : lo ≤ hi) (number : isNaN x = false) :
    pin lo hi x ≤ a ↔ lo ≤ a ∧ (x ≤ a ∨ hi ≤ a) := by
  rcases pin_cases ordered number with ⟨below, same⟩ | ⟨above, below, same⟩ | ⟨above, same⟩
  all_goals
    rw [same]
    constructor
  · intro le
    exact ⟨le, .inl (le_trans (le_of_lt below) le)⟩
  · exact And.left
  · intro le
    exact ⟨le_trans above le, .inl le⟩
  · rintro ⟨-, le | le⟩
    · exact le
    · exact le_trans below le
  · intro le
    exact ⟨le_trans ordered le, .inr le⟩
  · rintro ⟨-, le | le⟩
    · exact le_trans (le_of_lt above) le
    · exact le

end Ordered

end AugmentedLagrangian.Scalar

/- # AugmentedLagrangian.Proofs.Exact — exact arithmetic

`Exact K` holds the values of an ordered field, two infinities and what is no number.  Its
operations do not round.  Beyond the field they follow the rules of floating-point arithmetic: the
infinities are the ends of the line and absorb what is finite, a division by zero is infinite, and
what has no value, as `∞ - ∞`, is no number.  There is only one zero, which counts as positive when divided by.

At this type the definitions of the library are the mathematics that they implement.
-/
import Mathlib
import AugmentedLagrangian.Box.Basic
import AugmentedLagrangian.Proofs.Order

namespace AugmentedLagrangian

set_option autoImplicit false
set_option linter.unusedSectionVars false

/-- The values of an ordered field, two infinities and what is no number. -/
inductive Exact (K : Type) where
  | nan
  | negInf
  | fin (a : K)
  | posInf
  deriving DecidableEq

namespace Exact

section Order

variable {K : Type}

/-- The whole line from one infinity to the other, in order. -/
protected def le [LE K] : Exact K → Exact K → Prop
  | nan, _ | negInf, nan | fin _, nan | fin _, negInf | posInf, nan | posInf, negInf
  | posInf, fin _ => False
  | fin a, fin b => a ≤ b
  | negInf, negInf | negInf, fin _ | negInf, posInf | fin _, posInf | posInf, posInf => True

instance [LE K] : LE (Exact K) :=
  ⟨Exact.le⟩

instance [LE K] : LT (Exact K) :=
  ⟨fun a b => a ≤ b ∧ ¬ b ≤ a⟩

instance decideLe [LE K] [DecidableLE K] : (a b : Exact K) → Decidable (a ≤ b)
  | nan, _ | negInf, nan | fin _, nan | fin _, negInf | posInf, nan | posInf, negInf
  | posInf, fin _ => .isFalse id
  | fin a, fin b => inferInstanceAs (Decidable (a ≤ b))
  | negInf, negInf | negInf, fin _ | negInf, posInf | fin _, posInf | posInf, posInf =>
    .isTrue trivial

instance decideLt [LE K] [DecidableLE K] (a b : Exact K) : Decidable (a < b) :=
  inferInstanceAs (Decidable (a ≤ b ∧ ¬ b ≤ a))

end Order

variable {K : Type} [Field K] [LinearOrder K]

/-! ## The operations -/

instance : Add (Exact K) where
  add
    | nan, _ | negInf, nan | fin _, nan | posInf, nan | negInf, posInf | posInf, negInf => nan
    | fin a, fin b => fin (a + b)
    | negInf, negInf | negInf, fin _ | fin _, negInf => negInf
    | posInf, posInf | posInf, fin _ | fin _, posInf => posInf

instance : Neg (Exact K) where
  neg
    | nan => nan
    | negInf => posInf
    | fin a => fin (-a)
    | posInf => negInf

instance : Sub (Exact K) where
  sub a b := a + -b

/-- The infinity on the side of a factor; zero times infinity is no number. -/
def infinite (a : K) : Exact K :=
  if 0 < a then posInf else if a < 0 then negInf else nan

instance : Mul (Exact K) where
  mul
    | nan, _ | negInf, nan | fin _, nan | posInf, nan => nan
    | fin a, fin b => fin (a * b)
    | fin a, posInf | posInf, fin a => infinite a
    | fin a, negInf | negInf, fin a => infinite (-a)
    | posInf, posInf | negInf, negInf => posInf
    | posInf, negInf | negInf, posInf => negInf

/-- The multiplicative inverse. -/
protected def inv : Exact K → Exact K
  | nan => nan
  | fin a => if a = 0 then posInf else fin a⁻¹
  | negInf | posInf => fin 0

instance : Div (Exact K) where
  div a b := a * b.inv

instance : OfScientific (Exact K) where
  ofScientific mantissa negative exponent :=
    fin (OfScientific.ofScientific mantissa negative exponent)

/-- Exact arithmetic. -/
instance : Scalar (Exact K) where
  ltDecidable := inferInstance
  leDecidable := inferInstance
  magnitude
    | nan => nan
    | fin a => fin |a|
    | negInf | posInf => posInf
  isNaN
    | nan => true
    | _ => false
  nan := nan
  infinity := posInf
  line := trivial

/-! ## Finite values -/

section Finite

variable (a b : K)

@[simp] theorem fin_le : (fin a : Exact K) ≤ fin b ↔ a ≤ b := Iff.rfl

@[simp] theorem fin_lt : (fin a : Exact K) < fin b ↔ a < b := by
  rw [← not_le]
  exact ⟨fun less => less.2, fun less => ⟨(not_le.1 less).le, less⟩⟩

@[simp] theorem fin_add : (fin a + fin b : Exact K) = fin (a + b) := rfl

@[simp] theorem fin_neg : (-fin a : Exact K) = fin (-a) := rfl

@[simp] theorem fin_sub : (fin a - fin b : Exact K) = fin (a - b) := by
  rw [sub_eq_add_neg]
  rfl

@[simp] theorem fin_mul : (fin a * fin b : Exact K) = fin (a * b) := rfl

theorem fin_div {b : K} (nonzero : b ≠ 0) : (fin a / fin b : Exact K) = fin (a / b) := by
  show fin a * (if b = 0 then posInf else fin b⁻¹) = _
  rw [if_neg nonzero, fin_mul, div_eq_mul_inv]

@[simp] theorem magnitude_fin : Scalar.magnitude (fin a : Exact K) = fin |a| := rfl

theorem larger_fin : Scalar.larger (fin a : Exact K) (fin b) = fin (max a b) := by
  have numbers : Scalar.isNaN (fin a) = false ∧ Scalar.isNaN (fin b) = false := ⟨rfl, rfl⟩
  rw [Scalar.larger, numbers.1, numbers.2, if_neg Bool.false_ne_true, if_neg Bool.false_ne_true]
  by_cases less : a < b
  · rw [if_pos ((fin_lt a b).2 less), max_eq_right less.le]
  · rw [if_neg (mt (fin_lt a b).1 less), max_eq_left (not_lt.1 less)]

theorem smaller_fin : Scalar.smaller (fin a : Exact K) (fin b) = fin (min a b) := by
  have numbers : Scalar.isNaN (fin a) = false ∧ Scalar.isNaN (fin b) = false := ⟨rfl, rfl⟩
  rw [Scalar.smaller, numbers.1, numbers.2, if_neg Bool.false_ne_true, if_neg Bool.false_ne_true]
  by_cases less : b < a
  · rw [if_pos ((fin_lt b a).2 less), min_eq_right less.le]
  · rw [if_neg (mt (fin_lt b a).1 less), min_eq_left (not_lt.1 less)]

theorem pin_fin (lo hi : K) :
    Scalar.pin (fin lo : Exact K) (fin hi) (fin a) = fin (min (max a lo) hi) := by
  show Scalar.smaller (Scalar.larger (fin a) (fin lo)) (fin hi) = _
  rw [larger_fin, smaller_fin]

end Finite

@[simp] theorem isNaN_eq_false {a : Exact K} : Scalar.isNaN a = false ↔ a ≠ nan := by
  cases a <;> simp [Scalar.isNaN]

theorem infinite_of_pos {a : K} (pos : 0 < a) : infinite a = posInf :=
  if_pos pos

theorem infinite_of_neg {a : K} (neg : a < 0) : infinite a = negInf := by
  rw [infinite, if_neg neg.not_gt, if_pos neg]

variable [IsStrictOrderedRing K]

@[simp] theorem zero_eq : (0.0 : Exact K) = fin 0 := by
  show fin (0.0 : K) = fin 0
  norm_num

@[simp] theorem one_eq : (1.0 : Exact K) = fin 1 := by
  show fin (1.0 : K) = fin 1
  norm_num

@[simp] theorem half_eq : (0.5 : Exact K) = fin (1 / 2) := by
  show fin (0.5 : K) = fin (1 / 2)
  norm_num

theorem zero_le_zero : (0.0 : Exact K) ≤ 0.0 := by
  rw [zero_eq, fin_le]

theorem neg_one_le_zero : (-1.0 : Exact K) ≤ 0.0 := by
  rw [one_eq, zero_eq]
  exact neg_nonpos.2 zero_le_one

theorem zero_le_half : (0.0 : Exact K) ≤ 0.5 := by
  rw [zero_eq, half_eq, fin_le]
  exact one_half_pos.le

/-! ## The laws -/

instance : Scalar.Ordered (Exact K) where
  numbers_of_le {a b} le := by
    cases a <;> cases b <;> first | exact le.elim | exact ⟨rfl, rfl⟩
  le_or_le {a b} ha hb := by
    cases a <;> cases b <;> simp at ha hb <;>
      first | exact .inl trivial | exact .inr trivial | exact le_total _ _
  le_of_le_of_le {a b c} h₁ h₂ := by
    cases a <;> cases b <;> cases c <;>
      first | exact h₁.elim | exact h₂.elim | exact trivial | exact le_trans h₁ h₂
  lt_iff := Iff.rfl
  zero_lt_one := by simp

instance : Scalar.Signed (Exact K) where
  neg_le_zero {a} positive := by
    have nonneg := Scalar.le_of_lt positive
    rw [zero_eq] at nonneg ⊢
    cases a with
    | nan => exact nonneg.elim
    | negInf => exact nonneg.elim
    | fin a => exact neg_nonpos.2 nonneg
    | posInf => exact trivial

/-! ## Products -/

section Products

variable (a b : Exact K)

theorem fin_one_mul : fin 1 * a = a := by
  cases a with
  | nan => rfl
  | negInf => exact infinite_of_neg (neg_lt_zero.2 zero_lt_one)
  | fin a => rw [fin_mul, one_mul]
  | posInf => exact infinite_of_pos zero_lt_one

theorem mul_swap : a * b = b * a := by
  cases a <;> cases b <;> first | rfl | simp [mul_comm]

theorem one_div_mul : (1.0 / a) * b = b / a := by
  show (1.0 * a.inv) * b = b * a.inv
  rw [one_eq, fin_one_mul, mul_swap]

end Products

/-! ## Positive values -/

section Positive

variable {a : Exact K}

theorem zero_lt_fin {x : K} : 0.0 < fin x ↔ 0 < x := by
  rw [zero_eq, fin_lt]

/-- A positive value is a positive value of the field, or infinite. -/
theorem pos_cases (positive : 0.0 < a) : (∃ x : K, 0 < x ∧ a = fin x) ∨ a = posInf := by
  rw [zero_eq] at positive
  cases a with
  | nan => exact positive.1.elim
  | negInf => exact positive.1.elim
  | fin x => exact .inl ⟨x, (fin_lt 0 x).1 positive, rfl⟩
  | posInf => exact .inr rfl

theorem le_posInf (number : a ≠ nan) : a ≤ posInf := by
  cases a with
  | nan => exact absurd rfl number
  | _ => exact trivial

theorem posInf_mul (positive : 0.0 < a) : posInf * a = posInf := by
  rcases pos_cases positive with ⟨x, pos, rfl⟩ | rfl
  · exact infinite_of_pos pos
  · rfl

theorem mul_posInf (positive : 0.0 < a) : a * posInf = posInf := by
  rcases pos_cases positive with ⟨x, pos, rfl⟩ | rfl
  · exact infinite_of_pos pos
  · rfl

theorem posInf_div {x : K} (pos : 0 < x) : posInf / fin x = (posInf : Exact K) := by
  show posInf * (if x = 0 then posInf else fin x⁻¹) = posInf
  rw [if_neg pos.ne']
  exact posInf_mul (zero_lt_fin.2 (inv_pos.2 pos))

/-- A positive factor may be infinite, and still goes with a quotient. -/
theorem mul_div_fin (positive : 0.0 < a) {x y : K} (hx : 0 < x) (hy : 0 < y) :
    a * fin x / fin y = a * fin (x / y) := by
  rcases pos_cases positive with ⟨c, -, rfl⟩ | rfl
  · rw [fin_mul, fin_div _ hy.ne', fin_mul, mul_div_assoc]
  · rw [posInf_mul (zero_lt_fin.2 hx), posInf_div hy, posInf_mul (zero_lt_fin.2 (div_pos hx hy))]

theorem number_mul_fin (positive : 0.0 < a) {x : K} (hx : 0 < x) :
    Scalar.isNaN (a * fin x) = false := by
  rcases pos_cases positive with ⟨c, -, rfl⟩ | rfl
  · rfl
  · rw [posInf_mul (zero_lt_fin.2 hx)]
    rfl

end Positive

/-- A factor of one or more does not shrink what is positive. -/
instance : Scalar.Growing (Exact K) where
  le_scaled {s w} least positive := by
    have factor := Scalar.pos_of_one_le least
    rcases pos_cases positive with ⟨b, pos, rfl⟩ | rfl
    · rcases pos_cases factor with ⟨a, -, rfl⟩ | rfl
      · rw [one_eq, fin_le] at least
        exact (le_mul_iff_one_le_left pos).2 least
      · rw [posInf_mul positive]
        exact trivial
    · rw [mul_posInf factor]
      exact trivial

/-! ## Signs -/

section Signs

variable {a b σ : Exact K}

/-- A product with a positive factor has the sign of the other. -/
theorem pos_of_mul_pos (positive : 0.0 < σ) (product : 0.0 < σ * a) : 0.0 < a := by
  rcases pos_cases positive with ⟨s, pos, rfl⟩ | rfl
  · cases a with
    | nan => exact product
    | negInf =>
        have neg : fin s * negInf = (negInf : Exact K) := infinite_of_neg (neg_lt_zero.2 pos)
        rw [neg] at product
        exact product
    | fin a =>
        rw [fin_mul, zero_lt_fin] at product
        exact zero_lt_fin.2 (pos_of_mul_pos_right product pos.le)
    | posInf =>
        rw [zero_eq]
        exact ⟨trivial, id⟩
  · cases a with
    | nan => exact product
    | negInf => exact product
    | posInf => exact product
    | fin a =>
        have product : 0.0 < (infinite a : Exact K) := product
        rw [zero_eq] at product
        rw [zero_lt_fin]
        by_contra nonpos
        rcases (not_lt.1 nonpos).lt_or_eq with neg | rfl
        · rw [infinite_of_neg neg] at product
          exact product.1.elim
        · simp [infinite] at product
          exact product.1.elim

theorem infinite_neg (a : K) : infinite (-a) = -infinite a := by
  rcases lt_trichotomy a 0 with neg | rfl | pos
  · rw [infinite_of_neg neg, infinite_of_pos (neg_pos.2 neg)]
    rfl
  · simp [infinite]
    rfl
  · rw [infinite_of_pos pos, infinite_of_neg (neg_lt_zero.2 pos)]
    rfl

theorem mul_neg (σ a : Exact K) : σ * -a = -(σ * a) := by
  cases σ <;> cases a <;> first | rfl | skip
  · rename_i a
    show infinite (- -a) = -infinite (-a)
    exact infinite_neg (-a)
  · rename_i s
    show infinite s = -infinite (-s)
    rw [← infinite_neg, neg_neg]
  · rename_i s a
    show fin (s * -a) = fin (-(s * a))
    rw [neg_mul_eq_mul_neg]
  · exact infinite_neg _
  · exact infinite_neg _

theorem pos_neg_iff : 0.0 < -a ↔ a < 0.0 := by
  rw [zero_eq]
  cases a with
  | nan => exact Iff.rfl
  | negInf => exact ⟨fun _ => ⟨trivial, id⟩, fun _ => ⟨trivial, id⟩⟩
  | posInf => exact ⟨fun less => less.1.elim, fun less => less.1.elim⟩
  | fin a => rw [fin_neg, fin_lt, fin_lt, neg_pos]

theorem neg_of_mul_neg (positive : 0.0 < σ) (product : σ * a < 0.0) : a < 0.0 := by
  rw [← pos_neg_iff, ← mul_neg] at product
  exact pos_neg_iff.1 (pos_of_mul_pos positive product)

/-- A difference tells which value is larger. -/
theorem lt_of_sub_pos (difference : 0.0 < a - b) : b < a := by
  rw [zero_eq] at difference
  cases a <;> cases b <;> first
    | exact difference.1.elim
    | exact ⟨trivial, id⟩
    | skip
  rw [fin_sub, fin_lt, sub_pos] at difference
  exact (fin_lt _ _).2 difference

theorem lt_of_sub_neg (difference : a - b < 0.0) : a < b := by
  rw [zero_eq] at difference
  cases a <;> cases b <;> first
    | exact difference.1.elim
    | exact ⟨trivial, id⟩
    | skip
  rw [fin_sub, fin_lt, sub_neg] at difference
  exact (fin_lt _ _).2 difference

end Signs

/-! ## Distances -/

section Distances

variable {g p l u δ : Exact K}

theorem isNaN_magnitude {a : Exact K} (number : a ≠ nan) :
    Scalar.isNaN (Scalar.magnitude a) = false := by
  cases a with
  | nan => exact absurd rfl number
  | negInf => rfl
  | fin a => rfl
  | posInf => rfl

/-- A value whose distance from another can be compared is finite if the bound is, and so is the
other. -/
theorem finite_of_near {d : K} (near : Scalar.magnitude (g - p) ≤ fin d) :
    ∃ a b : K, g = fin a ∧ p = fin b ∧ |a - b| ≤ d := by
  cases g <;> cases p <;> first
    | exact near.elim
    | skip
  rename_i a b
  rw [fin_sub, magnitude_fin, fin_le] at near
  exact ⟨a, b, rfl, rfl, near⟩

theorem number_of_near (near : Scalar.magnitude (g - p) ≤ δ) : g ≠ nan ∧ p ≠ nan := by
  cases g <;> cases p <;> first
    | exact near.elim
    | exact ⟨nofun, nofun⟩

theorem not_magnitude_le_negInf (a : Exact K) : ¬ Scalar.magnitude a ≤ negInf := by
  cases a <;> exact id

/-- What is near a value above a bound is not far below the bound. -/
theorem sub_le_of_near (near : Scalar.magnitude (g - p) ≤ δ) (above : l ≤ p) (some : l ≠ posInf) :
    l - δ ≤ g := by
  obtain ⟨number, -⟩ := number_of_near near
  cases δ with
  | nan => exact absurd rfl (isNaN_eq_false.1 (Scalar.isNaN_right near))
  | negInf => exact absurd near (not_magnitude_le_negInf _)
  | posInf =>
      cases l <;> cases g <;> first
        | exact above.elim
        | exact absurd rfl some
        | exact absurd rfl number
        | exact trivial
  | fin d =>
      obtain ⟨a, b, rfl, rfl, close⟩ := finite_of_near near
      cases l with
      | nan => exact above.elim
      | negInf => exact trivial
      | posInf => exact absurd rfl some
      | fin l =>
          rw [fin_le] at above
          rw [fin_sub, fin_le]
          linarith [(abs_le.1 close).1]

/-- What is near a value below a bound is not far above the bound. -/
theorem le_add_of_near (near : Scalar.magnitude (g - p) ≤ δ) (below : p ≤ u) (some : u ≠ negInf) :
    g ≤ u + δ := by
  obtain ⟨number, -⟩ := number_of_near near
  cases δ with
  | nan => exact absurd rfl (isNaN_eq_false.1 (Scalar.isNaN_right near))
  | negInf => exact absurd near (not_magnitude_le_negInf _)
  | posInf =>
      cases u <;> cases g <;> first
        | exact absurd rfl (isNaN_eq_false.1 (Scalar.isNaN_right below))
        | exact absurd rfl some
        | exact absurd rfl number
        | exact trivial
  | fin d =>
      obtain ⟨a, b, rfl, rfl, close⟩ := finite_of_near near
      cases u with
      | nan => exact below.elim
      | negInf => exact absurd rfl some
      | posInf => exact trivial
      | fin u =>
          rw [fin_le] at below
          rw [fin_add, fin_le]
          linarith [(abs_le.1 close).2]

theorem exists_fin_of_between {a b : K} {x : Exact K} (least : fin a ≤ x) (most : x ≤ fin b) :
    ∃ c : K, x = fin c := by
  cases x with
  | nan => exact least.elim
  | negInf => exact least.elim
  | posInf => exact most.elim
  | fin c => exact ⟨c, rfl⟩

theorem eq_fin_of_between {a : K} {x : Exact K} (least : fin a ≤ x) (most : x ≤ fin a) :
    x = fin a := by
  obtain ⟨c, rfl⟩ := exists_fin_of_between least most
  rw [fin_le] at least most
  rw [le_antisymm most least]

/-- One step of the norm. -/
theorem near_of_step_le {acc e : Exact K}
    (small : (if Scalar.isNaN e || Scalar.isNaN acc then Scalar.nan
      else Scalar.larger acc (Scalar.magnitude e)) ≤ δ) : acc ≤ δ ∧ Scalar.magnitude e ≤ δ := by
  cases numbers : Scalar.isNaN e || Scalar.isNaN acc with
  | true =>
      rw [numbers, if_pos rfl] at small
      exact small.elim
  | false =>
      rw [numbers, if_neg Bool.false_ne_true] at small
      obtain ⟨he, hacc⟩ := Bool.or_eq_false_iff.1 numbers
      have magnitude := isNaN_magnitude (isNaN_eq_false.1 he)
      exact ⟨Scalar.le_trans (Scalar.le_larger_left hacc) small,
        Scalar.le_trans (Scalar.le_larger_right magnitude) small⟩

/-- A norm bounds every entry. -/
theorem near_of_normInf_le {es : List (Exact K)} (small : Scalar.normInf es ≤ δ) :
    ∀ e ∈ es, Scalar.magnitude e ≤ δ := by
  rw [Scalar.normInf] at small
  -- for the induction the fold starts anywhere, and bounds its start as well
  generalize (0.0 : Exact K) = acc at small
  suffices acc ≤ δ ∧ ∀ e ∈ es, Scalar.magnitude e ≤ δ from this.2
  induction es generalizing acc with
  | nil => exact ⟨small, List.forall_mem_nil _⟩
  | cons e es ih =>
      obtain ⟨step, rest⟩ := ih _ small
      obtain ⟨start, head⟩ := near_of_step_le step
      rw [List.forall_mem_cons]
      exact ⟨start, head, rest⟩

end Distances

end Exact

/-! ## Intervals -/

namespace Interval

variable {K : Type} [Field K] [LinearOrder K]

/-- Holds a value of the field. -/
def Meets (i : Interval (Exact K)) : Prop :=
  ∃ r : K, i.lower ≤ .fin r ∧ .fin r ≤ i.upper

variable {i : Interval (Exact K)}

theorem Meets.lower_ne (meets : i.Meets) : i.lower ≠ .posInf := by
  obtain ⟨r, lower, -⟩ := meets
  intro infinite
  rw [infinite] at lower
  exact lower

theorem Meets.upper_ne (meets : i.Meets) : i.upper ≠ .negInf := by
  obtain ⟨r, -, upper⟩ := meets
  intro infinite
  rw [infinite] at upper
  exact upper

theorem Meets.project_fin [IsStrictOrderedRing K] (meets : i.Meets) (z : K) :
    ∃ p : K, i.project (.fin z) = .fin p ∧ i.lower ≤ .fin p ∧ .fin p ≤ i.upper ∧
      ∀ r : K, i.lower ≤ .fin r → .fin r ≤ i.upper → (z - p) * (r - p) ≤ 0 := by
  obtain ⟨q, hl, hu⟩ := meets
  rcases Scalar.pin_cases i.ordered (x := .fin z) rfl with
    ⟨below, same⟩ | ⟨lower, upper, same⟩ | ⟨above, same⟩
  · obtain ⟨l, finite⟩ := Exact.exists_fin_of_between (Scalar.le_of_lt below) hl
    refine ⟨l, same.trans finite, finite ▸ Scalar.le_refl_of_number (by rw [finite]; rfl),
      finite ▸ i.ordered, fun r hr _ => ?_⟩
    rw [finite, Exact.fin_lt] at below
    rw [finite, Exact.fin_le] at hr
    nlinarith
  · exact ⟨z, same, lower, upper, fun r _ _ => by simp⟩
  · obtain ⟨u, finite⟩ := Exact.exists_fin_of_between hu (Scalar.le_of_lt above)
    refine ⟨u, same.trans finite, finite ▸ i.ordered,
      finite ▸ Scalar.le_refl_of_number (by rw [finite]; rfl), fun r _ hr => ?_⟩
    rw [finite, Exact.fin_lt] at above
    rw [finite, Exact.fin_le] at hr
    nlinarith

end Interval

end AugmentedLagrangian

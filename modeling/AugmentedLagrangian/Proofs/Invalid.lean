/- # AugmentedLagrangian.Proofs.Invalid — operations that come to no number

In double precision every operation has an outcome, but some outcomes are no number.  `Scalar.Ieee`
says which: those where an operand is no number already, and the invalid operations, which are
`∞ − ∞`, `∞ · 0`, `∞ / ∞` and `0 / 0`.  Overflow is not one of them, nor is a division by zero of
anything else.

What is infinite and what is zero is said by comparison, so both zeros count.
-/
import AugmentedLagrangian.Proofs.Double

namespace AugmentedLagrangian

set_option autoImplicit false

namespace Scalar

section

variable {R : Type} [Scalar R] (a b : R)

def Infinite : Prop :=
  infinity ≤ a ∨ a ≤ -infinity

/-- The value is one of the zeros. -/
def Vanishes : Prop :=
  a ≤ 0.0 ∧ 0.0 ≤ a

/-- Infinities whose sum is `∞ − ∞`. -/
def Opposed : Prop :=
  infinity ≤ a ∧ b ≤ -infinity ∨ a ≤ -infinity ∧ infinity ≤ b

/-- Infinities whose difference is `∞ − ∞`. -/
def Aligned : Prop :=
  infinity ≤ a ∧ infinity ≤ b ∨ a ≤ -infinity ∧ b ≤ -infinity

/-- Factors whose product is `∞ · 0`. -/
def Incompatible : Prop :=
  Infinite a ∧ Vanishes b ∨ Vanishes a ∧ Infinite b

end

/-- An operation comes to no number where an operand is none, and where it is invalid. -/
class Ieee (R : Type) [Scalar R] : Prop extends Ordered R where
  isNaN_add : ∀ {a b : R}, isNaN (a + b) = true ↔ isNaN a = true ∨ isNaN b = true ∨ Opposed a b
  isNaN_sub : ∀ {a b : R}, isNaN (a - b) = true ↔ isNaN a = true ∨ isNaN b = true ∨ Aligned a b
  isNaN_mul : ∀ {a b : R},
    isNaN (a * b) = true ↔ isNaN a = true ∨ isNaN b = true ∨ Incompatible a b
  isNaN_div : ∀ {a b : R}, isNaN (a / b) = true ↔ isNaN a = true ∨ isNaN b = true ∨
    Infinite a ∧ Infinite b ∨ Vanishes a ∧ Vanishes b
  not_infinite_one : ¬ Infinite (1.0 : R)
  isNaN_nan : isNaN (nan : R) = true

/-- A norm that is a number is one of numbers. -/
theorem numbers_of_normInf {R : Type} [Scalar R] [Ieee R] {xs : List R}
    (number : isNaN (normInf xs) = false) : ∀ x ∈ xs, isNaN x = false := by
  unfold normInf at number
  -- once the fold has no number it never has one again
  suffices ∀ acc : R, isNaN (xs.foldl (fun acc x => if isNaN x || isNaN acc then nan
      else larger acc (magnitude x)) acc) = false →
      isNaN acc = false ∧ ∀ x ∈ xs, isNaN x = false from (this _ number).2
  clear number
  induction xs with
  | nil => exact fun acc number => ⟨number, List.forall_mem_nil _⟩
  | cons x xs ih =>
      intro acc number
      rw [List.foldl_cons] at number
      obtain ⟨next, rest⟩ := ih _ number
      split at next
      · rw [Ieee.isNaN_nan] at next
        cases next
      · rename_i neither
        rw [Bool.or_eq_true, not_or, Bool.not_eq_true, Bool.not_eq_true] at neither
        exact ⟨neither.2, List.forall_mem_cons.2 ⟨neither.1, rest⟩⟩

end Scalar

namespace Double

open Float.Model Float.Model.UnpackedFloat

/-! ## Unpacked values -/

/-- Packing keeps what is a number and what is not. -/
theorem isNaN_unpack_pack (u : UnpackedFloat) :
    (UnpackedFloat.unpack .binary64 (UnpackedFloat.pack .binary64 u)).isNaN = u.isNaN := by
  rcases u with s | _ | s | ⟨s, m, e, pos⟩
  · rw [show UnpackedFloat.pack .binary64 (.infinity s) = packedInfinity .binary64 s from rfl,
      unpack_infinity]
  · rfl
  · cases s <;> rfl
  · have number : ∀ (field : BitVec 11) (stored : BitVec 52), field ≠ -1#11 →
        (UnpackedFloat.unpack .binary64 (packComponents .binary64 s field stored)).isNaN = false := by
      intro field stored below
      simp only [UnpackedFloat.unpack, unpackMantissa_packComponents, unpackExponent_packComponents]
      rw [if_neg below]
      split_ifs <;> rfl
    simp only [UnpackedFloat.pack]
    split_ifs with excess leads
    · rw [unpack_infinity]
      rfl
    · refine number (BitVec.ofNat 11 _) _ fun full => ?_
      have value := congrArg BitVec.toNat full
      rw [BitVec.toNat_ofNat] at value
      have bits : 2 ^ Format.binary64.exponentBits = 2048 := rfl
      have ones : (-1#11).toNat = 2047 := rfl
      omega
    · exact number _ _ (by decide)

@[simp] theorem isNaN_infinity (s : Sign) : (UnpackedFloat.infinity s).isNaN = false := rfl

@[simp] theorem isNaN_notANumber : UnpackedFloat.notANumber.isNaN = true := rfl

@[simp] theorem isNaN_zero (s : Sign) : (UnpackedFloat.zero s).isNaN = false := rfl

@[simp] theorem isNaN_finite (s : Sign) (m : Nat) (e : Int) (pos : 0 < m) :
    (UnpackedFloat.finite s m e pos).isNaN = false := rfl

/-- Rounding comes to a number. -/
@[simp] theorem isNaN_roundWithAccuracy (s : Sign) (m : Nat) (e : Int) (acc : Accuracy) :
    (roundWithAccuracy .binary64 s m e acc).isNaN = false := by
  unfold roundWithAccuracy
  simp only
  split_ifs <;> rfl

@[simp] theorem isNaN_normalize (m e : Int) (s : Sign) :
    (UnpackedFloat.normalize .binary64 m e s).isNaN = false := by
  unfold UnpackedFloat.normalize
  split
  · exact isNaN_roundWithAccuracy ..
  · rfl
  · exact isNaN_roundWithAccuracy ..

@[simp] theorem neg_positive : -Sign.positive = Sign.negative := rfl

@[simp] theorem neg_negative : -Sign.negative = Sign.positive := rfl

theorem isNaN_unpacked_add (u v : UnpackedFloat) :
    (UnpackedFloat.add .binary64 u v).isNaN = true ↔ u.isNaN = true ∨ v.isNaN = true ∨
      (u = .infinity .positive ∧ v = .infinity .negative ∨
        u = .infinity .negative ∧ v = .infinity .positive) := by
  rcases u with (_ | _) | _ | (_ | _) | ⟨s₁, m₁, e₁, pos₁⟩ <;>
    rcases v with (_ | _) | _ | (_ | _) | ⟨s₂, m₂, e₂, pos₂⟩ <;>
    simp [UnpackedFloat.add]

theorem isNaN_unpacked_sub (u v : UnpackedFloat) :
    (UnpackedFloat.sub .binary64 u v).isNaN = true ↔ u.isNaN = true ∨ v.isNaN = true ∨
      (u = .infinity .positive ∧ v = .infinity .positive ∨
        u = .infinity .negative ∧ v = .infinity .negative) := by
  rcases u with (_ | _) | _ | (_ | _) | ⟨s₁, m₁, e₁, pos₁⟩ <;>
    rcases v with (_ | _) | _ | (_ | _) | ⟨s₂, m₂, e₂, pos₂⟩ <;>
    simp [UnpackedFloat.sub]

theorem isNaN_unpacked_mul (u v : UnpackedFloat) :
    (UnpackedFloat.mul .binary64 u v).isNaN = true ↔ u.isNaN = true ∨ v.isNaN = true ∨
      ((∃ s, u = .infinity s) ∧ (∃ s, v = .zero s) ∨
        (∃ s, u = .zero s) ∧ ∃ s, v = .infinity s) := by
  rcases u with (_ | _) | _ | (_ | _) | ⟨s₁, m₁, e₁, pos₁⟩ <;>
    rcases v with (_ | _) | _ | (_ | _) | ⟨s₂, m₂, e₂, pos₂⟩ <;>
    simp [UnpackedFloat.mul]

theorem isNaN_unpacked_div (u v : UnpackedFloat) :
    (UnpackedFloat.div .binary64 u v).isNaN = true ↔ u.isNaN = true ∨ v.isNaN = true ∨
      ((∃ s, u = .infinity s) ∧ (∃ s, v = .infinity s) ∨
        (∃ s, u = .zero s) ∧ ∃ s, v = .zero s) := by
  rcases u with (_ | _) | _ | (_ | _) | ⟨s₁, m₁, e₁, pos₁⟩ <;>
    rcases v with (_ | _) | _ | (_ | _) | ⟨s₂, m₂, e₂, pos₂⟩ <;>
    simp [UnpackedFloat.div]

/-! ## Doubles

What is said by comparison with an infinity or with zero can be read off the unpacked value. -/

theorem infinity_le_iff (a : Float) :
    Scalar.infinity ≤ a ↔ a.toModel.unpack = .infinity .positive := by
  have place : placeOf Scalar.infinity = toLex (2, toLex (0, 0)) := by decide
  have number : Float.isNaN Scalar.infinity = false := by decide
  rw [le_iff, number, place, placeOf, Float.isNaN, Float.Model.isNaN]
  rcases a.toModel.unpack with (_ | _) | _ | _ | ⟨_ | _, m, e, _⟩ <;>
    simp [Double.place, Prod.Lex.toLex_le_toLex]

theorem le_neg_infinity_iff (a : Float) :
    a ≤ -Scalar.infinity ↔ a.toModel.unpack = .infinity .negative := by
  have place : placeOf (-Scalar.infinity) = toLex (-2, toLex (0, 0)) := by decide
  have number : Float.isNaN (-Scalar.infinity) = false := by decide
  rw [le_iff, number, place, placeOf, Float.isNaN, Float.Model.isNaN]
  rcases a.toModel.unpack with (_ | _) | _ | _ | ⟨_ | _, m, e, _⟩ <;>
    simp [Double.place, Prod.Lex.toLex_le_toLex]

theorem infinite_iff (a : Float) : Scalar.Infinite a ↔ ∃ s, a.toModel.unpack = .infinity s := by
  rw [Scalar.Infinite, infinity_le_iff, le_neg_infinity_iff]
  constructor
  · rintro (read | read) <;> exact ⟨_, read⟩
  · rintro ⟨_ | _, read⟩
    · exact .inr read
    · exact .inl read

theorem vanishes_iff (a : Float) : Scalar.Vanishes a ↔ ∃ s, a.toModel.unpack = .zero s := by
  have place : placeOf 0.0 = toLex (0, toLex (0, 0)) := by decide
  have number : Float.isNaN 0.0 = false := by decide
  rw [Scalar.Vanishes, le_iff, le_iff, number, place, placeOf, Float.isNaN, Float.Model.isNaN]
  rcases a.toModel.unpack with (_ | _) | _ | _ | ⟨_ | _, m, e, _⟩ <;>
    simp [Double.place, Prod.Lex.toLex_le_toLex]

instance : Scalar.Ieee Float where
  isNaN_add {a b} := by
    rw [Scalar.Opposed, infinity_le_iff, infinity_le_iff, le_neg_infinity_iff, le_neg_infinity_iff]
    exact (Bool.eq_iff_iff.1 (isNaN_unpack_pack _)).trans (isNaN_unpacked_add _ _)
  isNaN_sub {a b} := by
    rw [Scalar.Aligned, infinity_le_iff, infinity_le_iff, le_neg_infinity_iff, le_neg_infinity_iff]
    exact (Bool.eq_iff_iff.1 (isNaN_unpack_pack _)).trans (isNaN_unpacked_sub _ _)
  isNaN_mul {a b} := by
    rw [Scalar.Incompatible, infinite_iff, infinite_iff, vanishes_iff, vanishes_iff]
    exact (Bool.eq_iff_iff.1 (isNaN_unpack_pack _)).trans (isNaN_unpacked_mul _ _)
  isNaN_div {a b} := by
    rw [infinite_iff, infinite_iff, vanishes_iff, vanishes_iff]
    exact (Bool.eq_iff_iff.1 (isNaN_unpack_pack _)).trans (isNaN_unpacked_div _ _)
  not_infinite_one := by
    rw [Scalar.Infinite]
    decide
  isNaN_nan := by decide

end Double

end AugmentedLagrangian

/- # AugmentedLagrangian.Proofs.Scaling — what is scaled down does not grow

`Scalar.Growing` is about factors of one or more.  `Scalar.Shrinking` is about the others: a positive
value does not grow when it is scaled by a positive factor of at most one.

In double precision the product is rounded, and rounding may go up, but not beyond a value that is
itself a double (`round_below`).  What is cut from a mantissa is less than one, so the mantissa that is
left is rounded to a nearest whole number; where the number is at most a whole one, so is what it is
rounded to.
-/
import AugmentedLagrangian.Proofs.Exact
import AugmentedLagrangian.Proofs.Rounding

namespace AugmentedLagrangian

set_option autoImplicit false

/-- A positive value does not grow when it is scaled by a positive factor of at most one. -/
class Scalar.Shrinking (R : Type) [Scalar R] : Prop extends Scalar.Ordered R where
  scaled_le : ∀ {s w : R}, 0.0 < s → s ≤ 1.0 → 0.0 < w → s * w ≤ w

namespace Double

open Float.Model Float.Model.UnpackedFloat

/-! ## Rounding below a double -/

/-- The leading bit of a number below a double does not stand before the double's. -/
theorem log2_le_of_below {n m : Nat} {e c : Int} (positive : 0 < n) (fits : Fits m c)
    (below : (n * 2 ^ e : ℚ) ≤ m * 2 ^ c) : (n.log2 : Int) + e ≤ c + 52 := by
  have size : (m * 2 ^ c : ℚ) < 2 ^ (c + 53) := by
    have short : (m : ℚ) < 2 ^ (53 : Int) := by exact_mod_cast fits.mantissa_lt
    rw [add_comm, zpow_add₀ two_ne_zero]
    exact mul_lt_mul_of_pos_right short (zpow_pos two_pos c)
  have less : (2 : ℚ) ^ ((n.log2 : Int) + e) < 2 ^ (c + 53) :=
    (log2_bracket positive e).1.trans_lt (below.trans_lt size)
  have := (zpow_lt_zpow_iff_right₀ (one_lt_two : (1 : ℚ) < 2)).1 less
  omega

/-- A number that is at most a double is not rounded beyond it. -/
theorem round_below (s : Sign) {n m : Nat} {e c : Int} (positive : 0 < n) (fits : Fits m c)
    (reach : e ≤ max (n.log2 + e - 52) (-1074)) (below : (n * 2 ^ e : ℚ) ≤ m * 2 ^ c) :
    roundWithAccuracy .binary64 s n e .exact = .zero s ∨
      ∃ m' e' pos, roundWithAccuracy .binary64 s n e .exact = .finite s m' e' pos ∧ Fits m' e' ∧
        (e' < c ∨ e' = c ∧ m' ≤ m) := by
  have leading := log2_le_of_below positive fits below
  obtain ⟨lt, low, full⟩ := fits
  generalize target : max ((n.log2 : Int) + e - 52) (-1074) = t at reach
  obtain ⟨k, shift⟩ : ∃ k : Nat, t = e + k := ⟨(t - e).toNat, by omega⟩
  obtain ⟨j, gap⟩ : ∃ j : Nat, c = t + j := ⟨(c - t).toNat, by omega⟩
  obtain ⟨r, cut, -, -, zero | ⟨m', e', pos, rounded, fits', split⟩⟩ :=
    round_cut s .exact positive target shift
  · exact Or.inl zero.2
  -- at the exponent `t` the double is whole, and so is the rounded number
  have whole : (n / 2 ^ k : ℚ) ≤ (m * 2 ^ j : Nat) := by
    have unit : (0 : ℚ) < 2 ^ t := zpow_pos two_pos t
    refine le_of_mul_le_mul_right ?_ unit
    have left : (n / 2 ^ k : ℚ) * 2 ^ t = n * 2 ^ e := by
      rw [shift, zpow_add₀ two_ne_zero, zpow_natCast]
      field_simp
    have right : ((m * 2 ^ j : Nat) : ℚ) * 2 ^ t = m * 2 ^ c := by
      rw [gap, zpow_add₀ two_ne_zero, zpow_natCast]
      push_cast
      ring
    rw [left, right]
    exact below
  have near : |(r : ℚ) - n / 2 ^ k| ≤ 1 / 2 := by
    rw [cut]
    exact ((Marks.of_exact n).shiftRight k).rounded
  have most : r ≤ m * 2 ^ j := by
    have above := (abs_sub_le_iff.1 near).1
    have less : (r : ℚ) < (m * 2 ^ j : Nat) + 1 := by linarith
    exact Nat.lt_succ_iff.1 (by exact_mod_cast less)
  refine Or.inr ⟨m', e', pos, rounded, fits', ?_⟩
  -- with no gap the mantissas compare, with a gap of one bit those of a carry
  rcases j with _ | _ | j
  · rcases split with ⟨rfl, rfl⟩ | ⟨carry, rfl, rfl⟩ <;> omega
  · rcases split with ⟨rfl, rfl⟩ | ⟨carry, rfl, rfl⟩ <;> omega
  · rcases split with ⟨rfl, rfl⟩ | ⟨carry, rfl, rfl⟩ <;> omega

/-! ## Products -/

/-- The exponent of a finite double is not the largest. -/
theorem exponent_le {x : Float} {s : Sign} {m : Nat} {e : Int} {pos : 0 < m}
    (read : x.toModel.unpack = .finite s m e pos) : e ≤ 971 := by
  have back : UnpackedFloat.unpack .binary64 (UnpackedFloat.pack .binary64 x.toModel.unpack) =
      x.toModel.unpack := congrArg _ (pack_unpack x.toModel.valid)
  rw [read, unpack_pack s pos (fits_of_unpack read)] at back
  by_contra large
  rw [if_neg large] at back
  cases back

/-- A positive factor of at most one is a mantissa at an exponent, with a value of at most one. -/
theorem of_le_one {s : Float} (positive : 0.0 < s) (most : s ≤ 1.0) :
    ∃ m e pos, s.toModel.unpack = .finite .positive m e pos ∧ e ≤ -52 ∧ (m * 2 ^ e : ℚ) ≤ 1 := by
  obtain ⟨-, -, le⟩ := (le_iff s 1.0).1 most
  have one : placeOf 1.0 = toLex (1, toLex (-52, 2 ^ 52)) := by decide
  rw [one, placeOf] at le
  rcases of_pos positive with infinite | ⟨m, e, pos, read⟩
  · rw [infinite] at le
    simp [place, Prod.Lex.toLex_le_toLex] at le
  · rw [read] at le
    simp [place, Prod.Lex.toLex_le_toLex] at le
    obtain ⟨lt, low, full⟩ : Fits m e := fits_of_unpack read
    refine ⟨m, e, pos, read, by omega, ?_⟩
    have short : (m : ℚ) * 2 ^ e ≤ 2 ^ (52 : Int) * 2 ^ (-52 : Int) := by
      rcases le with less | ⟨rfl, le⟩
      · have half : (2 : ℚ) ^ e ≤ 2 ^ (-53 : Int) := zpow_le_zpow_right₀ one_le_two (by omega)
        have size : (m : ℚ) ≤ 2 ^ (53 : Int) := by exact_mod_cast lt.le
        calc (m : ℚ) * 2 ^ e ≤ 2 ^ (53 : Int) * 2 ^ (-53 : Int) :=
              mul_le_mul size half (zpow_pos two_pos e).le (by positivity)
          _ = 2 ^ (52 : Int) * 2 ^ (-52 : Int) := by norm_num
      · refine mul_le_mul_of_nonneg_right ?_ (by positivity)
        exact_mod_cast le
    refine short.trans_eq ?_
    rw [← zpow_add₀ two_ne_zero]
    norm_num

/-- A product that is scaled down by a finite factor is zero, or at the place of the value or before
it. -/
theorem product_le_place {m₁ m₂ : Nat} {e₁ e₂ : Int} (pos₁ : 0 < m₁) (pos₂ : 0 < m₂)
    (low : e₁ ≤ -52) (small : (m₁ * 2 ^ e₁ : ℚ) ≤ 1) (fits : Fits m₂ e₂) (high : e₂ ≤ 971) :
    let product := UnpackedFloat.unpack .binary64 (UnpackedFloat.pack .binary64
      (UnpackedFloat.mul .binary64 (.finite .positive m₁ e₁ pos₁) (.finite .positive m₂ e₂ pos₂)))
    product.isNaN = false ∧ place product ≤ place (.finite .positive m₂ e₂ pos₂) := by
  have positive : 0 < m₁ * m₂ := Nat.mul_pos pos₁ pos₂
  have leads : 2 ^ 52 ≤ m₂ → 52 ≤ (m₁ * m₂).log2 := by
    intro full
    rw [Nat.le_log2 positive.ne']
    exact Nat.le_trans full (Nat.le_mul_of_pos_left m₂ pos₁)
  have reach : e₁ + e₂ ≤ max ((m₁ * m₂).log2 + (e₁ + e₂) - 52) (-1074) := by
    rcases fits.full with full | least
    · have := leads full
      omega
    · omega
  have below : ((m₁ * m₂ : Nat) * 2 ^ (e₁ + e₂) : ℚ) ≤ m₂ * 2 ^ e₂ := by
    have value : (0 : ℚ) ≤ m₂ * 2 ^ e₂ := by positivity
    calc ((m₁ * m₂ : Nat) * 2 ^ (e₁ + e₂) : ℚ)
        = (m₁ * 2 ^ e₁) * (m₂ * 2 ^ e₂) := by
          rw [zpow_add₀ two_ne_zero]
          push_cast
          ring
      _ ≤ 1 * (m₂ * 2 ^ e₂) := mul_le_mul_of_nonneg_right small value
      _ = m₂ * 2 ^ e₂ := one_mul _
  intro product
  rcases round_below .positive positive fits reach below with
    zero | ⟨m, e, pos, rounded, fits', order⟩
  · have read : product = .zero .positive := by
      show UnpackedFloat.unpack _ (UnpackedFloat.pack _ (roundWithAccuracy _ _ _ _ _)) = _
      rw [show (Sign.positive * Sign.positive) = Sign.positive from rfl, zero]
      rfl
    rw [read]
    refine ⟨rfl, ?_⟩
    simp [place, Prod.Lex.toLex_le_toLex]
  · have read : product = .finite .positive m e pos := by
      have back := unpack_pack .positive pos fits'
      rw [if_pos (by omega), ← rounded] at back
      exact back.trans rounded
    rw [read]
    refine ⟨rfl, ?_⟩
    simpa [place, Prod.Lex.toLex_le_toLex] using order

instance : Scalar.Shrinking Float where
  scaled_le {s w} positive most pos := by
    have number : w.toModel.unpack.isNaN = false := ((lt_iff 0.0 w).1 pos).2.1
    have product : (s * w).toModel.unpack = UnpackedFloat.unpack .binary64
        (UnpackedFloat.pack .binary64
          (UnpackedFloat.mul .binary64 s.toModel.unpack w.toModel.unpack)) := rfl
    suffices (s * w).toModel.unpack.isNaN = false ∧
        place (s * w).toModel.unpack ≤ place w.toModel.unpack from
      (le_iff (s * w) w).2 ⟨this.1, number, this.2⟩
    obtain ⟨m₁, e₁, pos₁, hs, low, small⟩ := of_le_one positive most
    rcases of_pos pos with hw | ⟨m₂, e₂, pos₂, hw⟩
    · have read : (s * w).toModel.unpack = .infinity .positive := by
        rw [product, hs, hw]
        exact unpack_infinity .positive
      rw [read, hw]
      exact ⟨rfl, le_refl _⟩
    · rw [product, hs, hw]
      exact product_le_place pos₁ pos₂ low small (fits_of_unpack hw) (exponent_le hw)

end Double

namespace Exact

variable {K : Type} [Field K] [LinearOrder K] [IsStrictOrderedRing K]

instance : Scalar.Shrinking (Exact K) where
  scaled_le {s w} positive most value := by
    rcases pos_cases positive with ⟨a, -, rfl⟩ | rfl
    · rcases pos_cases value with ⟨b, pos, rfl⟩ | rfl
      · rw [one_eq, fin_le] at most
        exact (mul_le_iff_le_one_left pos).2 most
      · rw [mul_posInf positive]
        exact trivial
    · rw [one_eq] at most
      exact most.elim

end Exact

end AugmentedLagrangian

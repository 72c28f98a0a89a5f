/- # AugmentedLagrangian.Proofs.Double — the laws of double precision

Double precision obeys `Scalar.Ordered`, `Scalar.Growing` and `Scalar.Signed`.

Comparison puts every value that is a number at a place on one line (`place`): by its sign, then by
its exponent, then by its mantissa.  This needs no rounding and no range of mantissas.

Scaling does.  A product is the exact product of the mantissas, cut to 53 bits or to the least
exponent and rounded.  Rounding may go either way, but never below the mantissa that the cut leaves
(`round_bracket`).  When the factor is at least one, that mantissa at the exponent of the value is
already the value's own, so the product is at the place of the value or beyond; a product that is
too large becomes infinite, which is beyond as well.
-/
import Mathlib
import AugmentedLagrangian.Proofs.Order

namespace AugmentedLagrangian.Double

set_option autoImplicit false

open Float.Model Float.Model.UnpackedFloat

/-! ## The line of values -/

/-- Where a value stands: negative values in the order of falling magnitude, the zeros together,
then positive values.  The place of what is no number does not matter. -/
def place : UnpackedFloat → Int ×ₗ Int ×ₗ Int
  | .infinity .negative => toLex (-2, toLex (0, 0))
  | .finite .negative m e _ => toLex (-1, toLex (-e, -m))
  | .zero _ => toLex (0, toLex (0, 0))
  | .finite .positive m e _ => toLex (1, toLex (e, m))
  | .infinity .positive => toLex (2, toLex (0, 0))
  | .notANumber => toLex (3, toLex (0, 0))

theorem unpacked_le_iff (a b : UnpackedFloat) :
    a.le b = true ↔ a.isNaN = false ∧ b.isNaN = false ∧ place a ≤ place b := by
  rcases a with (_ | _) | _ | _ | ⟨_ | _, m₁, e₁, _⟩ <;>
    rcases b with (_ | _) | _ | _ | ⟨_ | _, m₂, e₂, _⟩ <;>
    simp [UnpackedFloat.le, UnpackedFloat.compare, place, UnpackedFloat.isNaN,
      Prod.Lex.toLex_le_toLex, compare]
  -- two finite values of one sign are left
  all_goals
    unfold compareOfLessAndEq
    split_ifs <;> simp <;> omega

theorem unpacked_lt_iff (a b : UnpackedFloat) :
    a.lt b = true ↔ a.isNaN = false ∧ b.isNaN = false ∧ place a < place b := by
  rcases a with (_ | _) | _ | _ | ⟨_ | _, m₁, e₁, _⟩ <;>
    rcases b with (_ | _) | _ | _ | ⟨_ | _, m₂, e₂, _⟩ <;>
    simp [UnpackedFloat.lt, UnpackedFloat.compare, place, UnpackedFloat.isNaN,
      Prod.Lex.toLex_lt_toLex, compare]
  all_goals
    unfold compareOfLessAndEq
    split_ifs <;> simp <;> omega

/-- The place of a double. -/
def placeOf (a : Float) : Int ×ₗ Int ×ₗ Int :=
  place a.toModel.unpack

theorem le_iff (a b : Float) :
    a ≤ b ↔ a.isNaN = false ∧ b.isNaN = false ∧ placeOf a ≤ placeOf b :=
  decide_eq_true_iff.trans (unpacked_le_iff a.toModel.unpack b.toModel.unpack)

theorem lt_iff (a b : Float) :
    a < b ↔ a.isNaN = false ∧ b.isNaN = false ∧ placeOf a < placeOf b :=
  decide_eq_true_iff.trans (unpacked_lt_iff a.toModel.unpack b.toModel.unpack)

instance : Scalar.Ordered Float where
  numbers_of_le h := ⟨((le_iff _ _).1 h).1, ((le_iff _ _).1 h).2.1⟩
  le_or_le {a b} ha hb := by
    rcases le_total (placeOf a) (placeOf b) with le | le
    · exact Or.inl ((le_iff a b).2 ⟨ha, hb, le⟩)
    · exact Or.inr ((le_iff b a).2 ⟨hb, ha, le⟩)
  le_of_le_of_le {a b c} h₁ h₂ := by
    obtain ⟨ha, -, le₁⟩ := (le_iff a b).1 h₁
    obtain ⟨-, hc, le₂⟩ := (le_iff b c).1 h₂
    exact (le_iff a c).2 ⟨ha, hc, le₁.trans le₂⟩
  lt_iff {a b} := by
    rw [lt_iff, le_iff, le_iff, lt_iff_le_not_ge]
    tauto
  zero_lt_one := by decide

/-! ## Rounding -/

/-- The mantissas and exponents that a value can have, apart from the largest exponent. -/
structure Fits (m : Nat) (e : Int) : Prop where
  mantissa_lt : m < 2 ^ 53
  least_le : -1074 ≤ e
  full : 2 ^ 52 ≤ m ∨ e = -1074

theorem mantissa_shiftRight (em : ExtendedMantissa) (n : Nat) :
    (em >>> n).mantissa = em.mantissa / 2 ^ n := by
  change (n.repeat ExtendedMantissa.shiftRightOne em).mantissa = _
  induction n with
  | zero => simp [Nat.repeat]
  | succ n ih =>
      rw [Nat.repeat, ExtendedMantissa.shiftRightOne]
      simp only [ih]
      rw [Nat.div_div_eq_div_mul, Nat.pow_succ]

/-- Rounding goes to the mantissa that is left or to the next. -/
theorem roundedMantissa_bounds (em : ExtendedMantissa) :
    em.mantissa ≤ em.roundedMantissa ∧ em.roundedMantissa ≤ em.mantissa + 1 := by
  obtain ⟨m, _ | _, _ | _⟩ := em <;>
    simp [ExtendedMantissa.roundedMantissa, ExtendedMantissa.accuracy,
      Accuracy.roundToNearestEven]
  omega

theorem targetExponent_eq (m : Nat) (e : Int) :
    Format.binary64.targetExponent (totalExponent m e) = max (m.log2 + e - 52) (-1074) := by
  simp only [Format.targetExponent, totalExponent, Format.mantissaBits, Format.minExponent]
  have bits : (Format.binary64.mantissaBitsWithoutImplicit : Int) = 52 := rfl
  have field : Format.binary64.exponentBits = 11 := rfl
  simp
  omega

/-- A mantissa that has been rounded up to one bit too many loses a zero. -/
theorem shift_rounded {r : Nat} {t : Int} (small : r ≤ 2 ^ 53) (least : -1074 ≤ t) :
    ∃ m e, shiftToTargetExponent .binary64 r t .exact = (⟨m, false, false⟩, e) ∧
      (r < 2 ^ 53 ∧ m = r ∧ e = t ∨ r = 2 ^ 53 ∧ m = 2 ^ 52 ∧ e = t + 1) := by
  simp only [shiftToTargetExponent, shiftToExponent, targetExponent_eq,
    ExtendedMantissa.ofMantissaAndAccuracy]
  rcases Nat.lt_or_eq_of_le small with lt | rfl
  · have log : r.log2 ≤ 52 := by
      rcases Nat.eq_zero_or_pos r with rfl | pos
      · simp
      · have := (Nat.log2_lt (by omega)).2 lt
        omega
    have amount : (max (r.log2 + t - 52) (-1074) - t).toNat = 0 := by omega
    refine ⟨r, t, ?_, Or.inl ⟨lt, rfl, rfl⟩⟩
    rw [amount]
    simp [HShiftRight.hShiftRight, Nat.repeat]
  · have log : (2 ^ 53 : Nat).log2 = 53 := Nat.log2_two_pow
    have amount : (max ((2 ^ 53 : Nat).log2 + t - 52) (-1074) - t).toNat = 1 := by
      rw [log]
      omega
    refine ⟨2 ^ 52, t + 1, ?_, Or.inr ⟨rfl, rfl, rfl⟩⟩
    rw [amount]
    simp [HShiftRight.hShiftRight, Nat.repeat, ExtendedMantissa.shiftRightOne]

/-- A mantissa `n` at exponent `e` is cut by `k` bits to the exponent `t` and rounded there, to `r`.
The result is zero, or fits; a carry into one bit too many moves into the exponent. -/
theorem round_cut (s : Sign) {n k : Nat} {e t : Int} (acc : Accuracy) (positive : 0 < n)
    (target : max (n.log2 + e - 52) (-1074) = t) (shift : t = e + k) :
    ∃ r, r = (ExtendedMantissa.ofMantissaAndAccuracy n acc >>> k).roundedMantissa ∧
      n / 2 ^ k ≤ r ∧ r ≤ n / 2 ^ k + 1 ∧
      (r = 0 ∧ roundWithAccuracy .binary64 s n e acc = .zero s ∨
        ∃ m' e' pos, roundWithAccuracy .binary64 s n e acc = .finite s m' e' pos ∧ Fits m' e' ∧
          (m' = r ∧ e' = t ∨ r = 2 ^ 53 ∧ m' = 2 ^ 52 ∧ e' = t + 1)) := by
  have window := (Nat.log2_eq_iff positive.ne').1 (rfl : n.log2 = n.log2)
  have below : n / 2 ^ k < 2 ^ 53 := by
    rw [Nat.div_lt_iff_lt_mul (Nat.two_pow_pos k), ← Nat.pow_add]
    exact Nat.lt_of_lt_of_le window.2 (Nat.pow_le_pow_right (by decide) (by omega))
  have above : t = -1074 ∨ 2 ^ 52 ≤ n / 2 ^ k := by
    rcases Int.le_iff_lt_or_eq.1 (show -1074 ≤ t by omega) with lt | eq
    · right
      rw [Nat.le_div_iff_mul_le (Nat.two_pow_pos k), ← Nat.pow_add]
      exact Nat.le_trans (Nat.pow_le_pow_right (by decide) (by omega)) window.1
    · exact Or.inl eq.symm
  let em := ExtendedMantissa.ofMantissaAndAccuracy n acc >>> k
  have cut : em.mantissa = n / 2 ^ k := by
    rw [mantissa_shiftRight]
    rcases acc with _ | (_ | _ | _) <;> rfl
  have rounded := roundedMantissa_bounds em
  rw [cut] at rounded
  obtain ⟨m', e', second, split⟩ :=
    shift_rounded (r := em.roundedMantissa) (t := t) (by omega) (by omega)
  have first : shiftToTargetExponent .binary64 n e acc = (em, t) := by
    have amount : (t - e).toNat = k := by omega
    simp only [shiftToTargetExponent, shiftToExponent, targetExponent_eq, target, amount, em]
    rw [shift]
  refine ⟨_, rfl, rounded.1, rounded.2, ?_⟩
  by_cases zero : m' = 0
  · left
    constructor
    · show em.roundedMantissa = 0
      omega
    · simp only [roundWithAccuracy, first, second]
      rw [dif_pos zero]
  · right
    refine ⟨m', e', Nat.pos_of_ne_zero zero, ?_, ?_, ?_⟩
    · simp only [roundWithAccuracy, first, second]
      rw [dif_neg zero]
    · constructor <;> omega
    · show m' = em.roundedMantissa ∧ _ ∨ em.roundedMantissa = _ ∧ _
      omega

/-- A mantissa that is cut to more than nothing is rounded to what fits, with a larger exponent or no
smaller mantissa than the cut has left. -/
theorem round_bracket (s : Sign) {n k : Nat} {e t : Int} (positive : 0 < n)
    (target : max (n.log2 + e - 52) (-1074) = t) (shift : t = e + k) (kept : 0 < n / 2 ^ k) :
    ∃ m' e' pos, roundWithAccuracy .binary64 s n e .exact = .finite s m' e' pos ∧ Fits m' e' ∧
      (t < e' ∨ t = e' ∧ n / 2 ^ k ≤ m') := by
  obtain ⟨r, -, least, -, zero | ⟨m', e', pos, rounded, fits, split⟩⟩ :=
    round_cut s .exact positive target shift
  · omega
  · exact ⟨m', e', pos, rounded, fits, by omega⟩

/-! ## Packing -/

theorem unpackSign_pack (s : Sign) (field : BitVec 11) (m : BitVec 52) :
    Sign.ofBitVec (unpackSign (packComponents .binary64 s field m)) = s := by
  have top (bit : BitVec 1) : (bit ++ field ++ m).extractLsb' 63 1 = bit := by
    rw [BitVec.extractLsb'_append_eq_of_le (by decide),
      BitVec.extractLsb'_append_eq_of_le (by decide)]
    simp
  change Sign.ofBitVec ((s.toBitVec ++ field ++ m).extractLsb' 63 1) = s
  rw [top]
  cases s <;> rfl

/-- A normal value by its parts: the leading bit of the mantissa is not stored. -/
theorem unpack_normal (s : Sign) {m : Nat} {e : Int} (pos : 0 < m) (least : 2 ^ 52 ≤ m)
    (lt : m < 2 ^ 53) (low : -1074 ≤ e) (high : e ≤ 971) :
    UnpackedFloat.unpack .binary64
        (packComponents .binary64 s (BitVec.ofNat 11 (e + 1075).toNat) (BitVec.ofNat 52 m)) =
      .finite s m e pos := by
  have field : (BitVec.ofNat 11 (e + 1075).toNat).toNat = (e + 1075).toNat := by
    rw [BitVec.toNat_ofNat]
    exact Nat.mod_eq_of_lt (by omega)
  have stored : (BitVec.ofNat 52 m).toNat + 2 ^ 52 = m := by
    rw [BitVec.toNat_ofNat]
    omega
  have inside (c : BitVec 11) (apart : c.toNat ≠ (e + 1075).toNat) :
      BitVec.ofNat 11 (e + 1075).toNat ≠ c := by
    rintro rfl
    exact apart field
  simp only [UnpackedFloat.unpack, unpackMantissa_packComponents, unpackExponent_packComponents]
  rw [if_neg (inside (-1#11) (by simp; omega)), if_neg (inside 0#11 (by simp; omega))]
  simp only [UnpackedFloat.finite.injEq]
  refine ⟨unpackSign_pack s _ _, ?_, ?_⟩
  · rw [BitVec.toNat_append, ← Nat.shiftLeft_add_eq_or_of_lt (BitVec.ofNat 52 m).isLt,
      Nat.shiftLeft_eq]
    change 1 * 2 ^ 52 + (BitVec.ofNat 52 m).toNat = m
    omega
  · change ((BitVec.ofNat 11 (e + 1075).toNat).toNat : Int) - ((1023 : Nat) + (52 : Nat)) = e
    rw [field]
    omega

/-- A subnormal value by its parts. -/
theorem unpack_subnormal (s : Sign) {m : Nat} (pos : 0 < m) (lt : m < 2 ^ 52) :
    UnpackedFloat.unpack .binary64 (packComponents .binary64 s 0#11 (BitVec.ofNat 52 m)) =
      .finite s m (-1074) pos := by
  have stored : (BitVec.ofNat 52 m).toNat = m := by
    rw [BitVec.toNat_ofNat]
    exact Nat.mod_eq_of_lt lt
  have nonzero : BitVec.ofNat 52 m ≠ 0#52 := by
    intro zero
    rw [zero] at stored
    exact pos.ne stored
  simp only [UnpackedFloat.unpack, unpackMantissa_packComponents, unpackExponent_packComponents]
  rw [if_neg (by decide), if_pos trivial, dif_neg nonzero]
  simp only [UnpackedFloat.finite.injEq]
  exact ⟨unpackSign_pack s _ _, stored, by decide⟩

theorem unpack_infinity (s : Sign) :
    UnpackedFloat.unpack .binary64 (packedInfinity .binary64 s) = .infinity s := by
  cases s <;> rfl

/-- What fits is read back as it was, or as infinite where the exponent is too large. -/
theorem unpack_pack (s : Sign) {m : Nat} {e : Int} (pos : 0 < m) (fits : Fits m e) :
    UnpackedFloat.unpack .binary64 (UnpackedFloat.pack .binary64 (.finite s m e pos)) =
      if e ≤ 971 then .finite s m e pos else .infinity s := by
  obtain ⟨lt, low, full⟩ := fits
  have biased : (e + Format.binary64.exponentBias +
      Format.binary64.mantissaBitsWithoutImplicit).toNat = (e + 1075).toNat := by
    change (e + (1023 : Nat) + (52 : Nat)).toNat = _
    omega
  have leads : m.log2 + 1 = Format.binary64.mantissaBits ↔ 2 ^ 52 ≤ m := by
    change m.log2 + 1 = 53 ↔ _
    have := @Nat.le_log2 m 52 (by omega)
    have := @Nat.log2_lt m 53 (by omega)
    omega
  simp only [UnpackedFloat.pack, biased, leads]
  split_ifs with excess high normal high
  · omega
  · exact unpack_infinity s
  · exact unpack_normal s pos normal lt low high
  · omega
  · obtain rfl : e = -1074 := full.resolve_left normal
    exact unpack_subnormal s pos (by omega)
  · omega

/-- What is read fits. -/
theorem fits_of_unpack {b : BitVec Format.binary64.numBits} {s m e pos}
    (read : UnpackedFloat.unpack .binary64 b = .finite s m e pos) : Fits m e := by
  have stored : (unpackMantissa b).toNat < 2 ^ 52 := (unpackMantissa b).isLt
  have bias : (Format.binary64.exponentBias : Int) = 1023 := rfl
  have bits : (Format.binary64.mantissaBitsWithoutImplicit : Int) = 52 := rfl
  simp only [UnpackedFloat.unpack, bias, bits] at read
  split at read
  · split at read <;> simp at read
  · split at read
    · rename_i subnormal
      split at read
      · simp at read
      · obtain ⟨-, rfl, rfl⟩ := UnpackedFloat.finite.inj read
        rw [subnormal]
        exact ⟨by omega, by simp, Or.inr (by simp)⟩
    · rename_i normal
      obtain ⟨-, rfl, rfl⟩ := UnpackedFloat.finite.inj read
      have field : (unpackExponent b).toNat ≠ 0 := fun zero =>
        normal (BitVec.eq_of_toNat_eq (by simpa using zero))
      rw [BitVec.toNat_append, ← Nat.shiftLeft_add_eq_or_of_lt stored, Nat.shiftLeft_eq]
      constructor <;> simp <;> omega

/-! ## Scaling -/

/-- A product that is scaled up by a finite factor is at the place of the value or beyond. -/
theorem place_le_product {m₁ m₂ : Nat} {e₁ e₂ : Int} (pos₁ : 0 < m₁) (pos₂ : 0 < m₂)
    (wide : 2 ^ 52 ≤ m₁) (least : -52 ≤ e₁) (fits : Fits m₂ e₂) :
    let product := UnpackedFloat.unpack .binary64 (UnpackedFloat.pack .binary64
      (UnpackedFloat.mul .binary64 (.finite .positive m₁ e₁ pos₁) (.finite .positive m₂ e₂ pos₂)))
    product.isNaN = false ∧ place (.finite .positive m₂ e₂ pos₂) ≤ place product := by
  obtain ⟨lt, low, full⟩ := fits
  have grows : 2 ^ 52 * m₂ ≤ m₁ * m₂ := Nat.mul_le_mul_right m₂ wide
  have log : 52 + m₂.log2 ≤ (m₁ * m₂).log2 := by
    rw [Nat.le_log2 (by omega), Nat.pow_add]
    exact Nat.le_trans (Nat.mul_le_mul_left _ (Nat.log2_self_le (by omega))) grows
  have leads : 2 ^ 52 ≤ m₂ → 52 ≤ m₂.log2 := (Nat.le_log2 (by omega)).2
  -- the exponent of the product, and by how much the exact product is cut to reach it
  generalize target : max ((m₁ * m₂).log2 + (e₁ + e₂) - 52) (-1074) = t
  have reached : e₂ ≤ t := by omega
  obtain ⟨k, shift⟩ : ∃ k : Nat, t = e₁ + e₂ + k := ⟨(t - (e₁ + e₂)).toNat, by omega⟩
  have kept : 0 < m₁ * m₂ / 2 ^ k := by
    refine Nat.div_pos (Nat.le_trans ?_ (Nat.log2_self_le (by omega))) (Nat.two_pow_pos k)
    exact Nat.pow_le_pow_right (by decide) (by omega)
  obtain ⟨m, e, pos, rounded, fits, bracket⟩ :=
    round_bracket .positive (Nat.mul_pos pos₁ pos₂) target shift kept
  intro product
  have read : product = if e ≤ 971 then .finite .positive m e pos else .infinity .positive := by
    rw [← unpack_pack .positive pos fits, ← rounded]
    rfl
  rw [read]
  split_ifs with high
  · refine ⟨rfl, ?_⟩
    suffices e₂ < e ∨ e₂ = e ∧ m₂ ≤ m by simpa [place, Prod.Lex.toLex_le_toLex]
    rcases Int.lt_or_eq_of_le (show e₂ ≤ e by omega) with lt | rfl
    · exact Or.inl lt
    · have share : m₂ ≤ m₁ * m₂ / 2 ^ k := by
        rw [Nat.le_div_iff_mul_le (Nat.two_pow_pos k), Nat.mul_comm]
        exact Nat.le_trans
          (Nat.mul_le_mul_right m₂ (Nat.pow_le_pow_right (by decide) (by omega))) grows
      omega
  · refine ⟨rfl, ?_⟩
    simp [place, Prod.Lex.toLex_le_toLex]

/-- A factor of one or more is infinite or has a full mantissa and an exponent of at least `-52`. -/
theorem of_one_le {s : Float} (h : 1.0 ≤ s) :
    s.toModel.unpack = .infinity .positive ∨
      ∃ m e pos, s.toModel.unpack = .finite .positive m e pos ∧ 2 ^ 52 ≤ m ∧ -52 ≤ e := by
  obtain ⟨-, number, le⟩ := (le_iff 1.0 s).1 h
  have one : placeOf 1.0 = toLex (1, toLex (-52, 2 ^ 52)) := by decide
  change s.toModel.unpack.isNaN = false at number
  rw [one, placeOf] at le
  rcases read : s.toModel.unpack with (_ | _) | _ | _ | ⟨_ | _, m, e, pos⟩ <;>
    rw [read] at le number <;>
    simp [place, Prod.Lex.toLex_le_toLex, UnpackedFloat.isNaN] at le number
  · exact Or.inl rfl
  · obtain ⟨lt, low, full⟩ : Fits m e := fits_of_unpack read
    exact Or.inr ⟨m, e, pos, rfl, by omega, by omega⟩

/-- A positive value is infinite or a mantissa with an exponent. -/
theorem of_pos {w : Float} (h : 0.0 < w) :
    w.toModel.unpack = .infinity .positive ∨
      ∃ m e pos, w.toModel.unpack = .finite .positive m e pos := by
  obtain ⟨-, number, lt⟩ := (lt_iff 0.0 w).1 h
  have zero : placeOf 0.0 = toLex (0, toLex (0, 0)) := by decide
  change w.toModel.unpack.isNaN = false at number
  rw [zero, placeOf] at lt
  rcases read : w.toModel.unpack with (_ | _) | _ | _ | ⟨_ | _, m, e, pos⟩ <;>
    rw [read] at lt number <;>
    simp [place, Prod.Lex.toLex_lt_toLex, UnpackedFloat.isNaN] at lt number
  · exact Or.inl rfl
  · exact Or.inr ⟨m, e, pos, rfl⟩

/-- What is negated is packed and read back, which keeps its sign. -/
instance : Scalar.Signed Float where
  neg_le_zero {a} positive := by
    have zero : placeOf 0.0 = toLex (0, toLex (0, 0)) := by decide
    have negated : (-a).toModel.unpack =
        UnpackedFloat.unpack .binary64 (UnpackedFloat.pack .binary64 a.toModel.unpack.neg) := rfl
    suffices (-a).toModel.unpack.isNaN = false ∧
        place (-a).toModel.unpack ≤ toLex (0, toLex (0, 0)) from
      (le_iff (-a) 0.0).2 ⟨this.1, rfl, zero ▸ this.2⟩
    have infinite : (-a).toModel.unpack = .infinity .negative →
        (-a).toModel.unpack.isNaN = false ∧
          place (-a).toModel.unpack ≤ toLex (0, toLex (0, 0)) := by
      intro read
      rw [read]
      exact ⟨rfl, by decide⟩
    rcases of_pos positive with read | ⟨m, e, pos, read⟩
    · apply infinite
      rw [negated, read]
      exact unpack_infinity .negative
    · have packed := unpack_pack .negative pos (fits_of_unpack read)
      have negative : (-a).toModel.unpack =
          if e ≤ 971 then .finite .negative m e pos else .infinity .negative := by
        rw [negated, read]
        exact packed
      split_ifs at negative with small
      · rw [negative]
        exact ⟨rfl, by simp [place, Prod.Lex.toLex_le_toLex]⟩
      · exact infinite negative

/-- The largest place is that of infinity. -/
theorem place_le_infinity {u : UnpackedFloat} (number : u.isNaN = false) :
    place u ≤ place (.infinity .positive) := by
  rcases u with (_ | _) | _ | _ | ⟨_ | _, m, e, _⟩ <;>
    simp [place, Prod.Lex.toLex_le_toLex, UnpackedFloat.isNaN] at number ⊢

instance : Scalar.Growing Float where
  le_scaled {s w} hs hw := by
    have number : w.toModel.unpack.isNaN = false := ((lt_iff 0.0 w).1 hw).2.1
    have product : (s * w).toModel.unpack = UnpackedFloat.unpack .binary64
        (UnpackedFloat.pack .binary64
          (UnpackedFloat.mul .binary64 s.toModel.unpack w.toModel.unpack)) := rfl
    suffices (s * w).toModel.unpack.isNaN = false ∧
        place w.toModel.unpack ≤ place (s * w).toModel.unpack from
      (le_iff w (s * w)).2 ⟨number, this.1, this.2⟩
    have infinite : UnpackedFloat.mul .binary64 s.toModel.unpack w.toModel.unpack =
        .infinity .positive → (s * w).toModel.unpack.isNaN = false ∧
          place w.toModel.unpack ≤ place (s * w).toModel.unpack := by
      intro whole
      have read : (s * w).toModel.unpack = .infinity .positive := by
        rw [product, whole]
        exact unpack_infinity .positive
      rw [read]
      exact ⟨rfl, place_le_infinity number⟩
    rcases of_one_le hs with hs | ⟨m₁, e₁, pos₁, hs, wide, least⟩ <;>
      rcases of_pos hw with hw | ⟨m₂, e₂, pos₂, hw⟩
    · exact infinite (by rw [hs, hw]; rfl)
    · exact infinite (by rw [hs, hw]; rfl)
    · exact infinite (by rw [hs, hw]; rfl)
    · rw [product, hs, hw]
      exact place_le_product pos₁ pos₂ wide least (fits_of_unpack hw)

end AugmentedLagrangian.Double

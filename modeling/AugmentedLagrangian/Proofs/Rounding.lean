/- # AugmentedLagrangian.Proofs.Rounding — sums and quotients of doubles are the nearest ones

An operation leaves a mantissa with two bits that say where the exact number lies between this
mantissa and the next (`Marks`).  Cutting further keeps these bits right, and rounding by them goes
to a nearest mantissa, so the result of an operation is off by half a unit of its last place at most
(`round_near`).
-/
import AugmentedLagrangian.Proofs.Words

namespace AugmentedLagrangian

set_option autoImplicit false

namespace Double

open Float.Model Float.Model.UnpackedFloat

/-! ## The bits behind a mantissa -/

/-- The mantissa is what is whole in the number, and its bits say whether a half is left, and
whether more than that is. -/
structure Marks (em : ExtendedMantissa) (x : ℚ) : Prop where
  least : em.mantissa ≤ x
  most : x < em.mantissa + 1
  half : em.roundBit = true ↔ em.mantissa + 1 / 2 ≤ x
  exact : em.stickyBit = false → x = em.mantissa + if em.roundBit then 1 / 2 else 0

namespace Marks

variable {em : ExtendedMantissa} {x : ℚ}

theorem of_exact (n : Nat) : Marks (.ofMantissaAndAccuracy n .exact) n :=
  ⟨le_refl _, by simp [ExtendedMantissa.ofMantissaAndAccuracy],
    by simp [ExtendedMantissa.ofMantissaAndAccuracy],
    fun _ => by simp [ExtendedMantissa.ofMantissaAndAccuracy]⟩

/-- The bits behind a quotient come from its remainder. -/
theorem of_quotient (num : Nat) {den : Nat} (pos : 0 < den) :
    Marks (.ofMantissaAndAccuracy (num / den) (accuracyOfFraction (num % den) den))
      (num / den : ℚ) := by
  have positive : (0 : ℚ) < den := by exact_mod_cast pos
  have parts : (num : ℚ) = den * (num / den : Nat) + (num % den : Nat) := by
    exact_mod_cast (Nat.div_add_mod num den).symm
  have below : ((num % den : Nat) : ℚ) < den := by exact_mod_cast Nat.mod_lt num pos
  have value : (num / den : ℚ) = (num / den : Nat) + (num % den : Nat) / den := by
    rw [parts, add_div, mul_div_cancel_left₀ _ positive.ne']
  rw [value]
  generalize num / den = q
  have half : (1 / 2 : ℚ) ≤ (num % den : Nat) / den ↔ den ≤ 2 * (num % den) := by
    rw [div_le_div_iff₀ two_pos positive, one_mul, mul_comm]
    exact_mod_cast Iff.rfl
  have most : ((num % den : Nat) : ℚ) / den < 1 := (div_lt_one positive).2 below
  have least : (0 : ℚ) ≤ (num % den : Nat) / den := div_nonneg (Nat.cast_nonneg _) positive.le
  by_cases none : num % den = 0
  · simpa [none, accuracyOfFraction] using of_exact q
  · rw [accuracyOfFraction, if_neg none]
    rcases order : compare (2 * (num % den)) den with _ | _ | _
    · have less : ¬ den ≤ 2 * (num % den) := Nat.not_le.2 (compare_lt_iff_lt.1 order)
      have below_half := lt_of_not_ge (half.not.2 less)
      constructor <;> simp [ExtendedMantissa.ofMantissaAndAccuracy] <;> linarith
    · have middle : (2 * (num % den : Nat) : ℚ) = den := by
        exact_mod_cast compare_eq_iff_eq.1 order
      have at_half : ((num % den : Nat) : ℚ) / den = 1 / 2 := by
        rw [div_eq_div_iff positive.ne' two_ne_zero, one_mul, mul_comm, middle]
      constructor <;> simp [ExtendedMantissa.ofMantissaAndAccuracy] <;> linarith
    · have more : den ≤ 2 * (num % den) := (compare_gt_iff_gt.1 order).le
      have above_half := half.2 more
      constructor <;> simp [ExtendedMantissa.ofMantissaAndAccuracy] <;> linarith

/-- Cutting one more bit. -/
theorem shiftRightOne (marks : Marks em x) : Marks em.shiftRightOne (x / 2) := by
  obtain ⟨least, most, half, exact⟩ := marks
  have parts : (em.mantissa : ℚ) = 2 * (em.mantissa / 2 : Nat) + (em.mantissa % 2 : Nat) := by
    exact_mod_cast (Nat.div_add_mod em.mantissa 2).symm
  -- without the new sticky bit nothing was left behind the old mantissa
  have whole : em.shiftRightOne.stickyBit = false → x = em.mantissa := by
    intro settled
    obtain ⟨round, sticky⟩ := Bool.or_eq_false_iff.1 settled
    simpa [round] using exact sticky
  rcases Nat.mod_two_eq_zero_or_one em.mantissa with even | odd
  · rw [even] at parts
    refine ⟨?_, ?_, ?_, fun settled => ?_⟩ <;> simp only [ExtendedMantissa.shiftRightOne, even]
    · linarith
    · linarith
    · simp
      linarith
    · rw [whole settled, parts]
      simp
  · rw [odd] at parts
    refine ⟨?_, ?_, ?_, fun settled => ?_⟩ <;> simp only [ExtendedMantissa.shiftRightOne, odd]
    · linarith
    · linarith
    · simp
      linarith
    · rw [whole settled, parts]
      simp
      ring

theorem shiftRight (marks : Marks em x) (k : Nat) : Marks (em >>> k) (x / 2 ^ k) := by
  change Marks (k.repeat ExtendedMantissa.shiftRightOne em) _
  induction k with
  | zero =>
      rw [pow_zero, div_one]
      exact marks
  | succ k ih =>
      have halved := ih.shiftRightOne
      rw [div_div, ← pow_succ] at halved
      exact halved

/-- Rounding goes to a nearest mantissa. -/
theorem rounded (marks : Marks em x) : |(em.roundedMantissa : ℚ) - x| ≤ 1 / 2 := by
  obtain ⟨least, most, half, exact⟩ := marks
  obtain ⟨m, roundBit, stickyBit⟩ := em
  rw [abs_sub_le_iff]
  cases roundBit with
  | false =>
      have below : x < m + 1 / 2 := by simpa using half
      have down : (⟨m, false, stickyBit⟩ : ExtendedMantissa).roundedMantissa = m := by
        cases stickyBit <;> rfl
      rw [down]
      constructor <;> linarith
  | true =>
      have above : (m + 1 / 2 : ℚ) ≤ x := half.1 rfl
      cases stickyBit with
      | false =>
          have middle : x = m + 1 / 2 := exact rfl
          have even : (⟨m, true, false⟩ : ExtendedMantissa).roundedMantissa = m + m % 2 := rfl
          rw [even, middle]
          rcases Nat.mod_two_eq_zero_or_one m with bit | bit <;> rw [bit] <;>
            constructor <;> push_cast <;> linarith
      | true =>
          have up : (⟨m, true, true⟩ : ExtendedMantissa).roundedMantissa = m + 1 := rfl
          rw [up, Nat.cast_add, Nat.cast_one]
          constructor <;> linarith

end Marks

/-! ## Rounding -/

/-- A carry that has moved into the exponent leaves the number as it was. -/
theorem value_of_carry {m r : Nat} {e t : Int}
    (split : m = r ∧ e = t ∨ r = 2 ^ 53 ∧ m = 2 ^ 52 ∧ e = t + 1) :
    (m : ℚ) * 2 ^ e = r * 2 ^ t := by
  rcases split with ⟨rfl, rfl⟩ | ⟨rfl, rfl, rfl⟩
  · rfl
  · rw [zpow_add_one₀ two_ne_zero]
    push_cast
    ring

/-- A wide mantissa that stands for a number `x` at exponent `e` is rounded to a double that is off
by half a unit of its last place at most. -/
theorem round_near (s : Sign) {n : Nat} {e : Int} {acc : Accuracy} {x : ℚ}
    (marks : Marks (.ofMantissaAndAccuracy n acc) x) (wide : 2 ^ 52 ≤ n)
    (normal : -1022 ≤ n.log2 + e) :
    ∃ m' e' pos, roundWithAccuracy .binary64 s n e acc = .finite s m' e' pos ∧ Fits m' e' ∧
      e' ≤ n.log2 + e - 51 ∧
      |(m' : ℚ) * 2 ^ e' - x * 2 ^ e| ≤ 2 ^ (n.log2 + e - 53) := by
  have positive : 0 < n := by omega
  have log : 52 ≤ n.log2 := (Nat.le_log2 positive.ne').2 wide
  obtain ⟨k, bits⟩ : ∃ k, n.log2 = 52 + k := ⟨n.log2 - 52, by omega⟩
  obtain ⟨t, target⟩ : ∃ t, t = e + k := ⟨_, rfl⟩
  have kept : 0 < n / 2 ^ k := by
    refine Nat.div_pos (Nat.le_trans ?_ (Nat.log2_self_le positive.ne')) (Nat.two_pow_pos k)
    exact Nat.pow_le_pow_right (by decide) (by omega)
  obtain ⟨r, cut, least, -, zero | ⟨m', e', pos, rounded, fits, split⟩⟩ :=
    round_cut s acc positive (by omega) target
  · omega
  have near : |(r : ℚ) - x / 2 ^ k| ≤ 1 / 2 := by
    rw [cut]
    exact (marks.shiftRight k).rounded
  refine ⟨m', e', pos, rounded, fits, by omega, ?_⟩
  have scaled : x * 2 ^ e = x / 2 ^ k * 2 ^ t := by
    rw [target, zpow_add₀ two_ne_zero, zpow_natCast]
    field_simp
  have unit : (2 : ℚ) ^ (n.log2 + e - 53) = 1 / 2 * 2 ^ t := by
    rw [show (n.log2 + e - 53 : Int) = t - 1 by omega, zpow_sub_one₀ two_ne_zero]
    ring
  have positive : (0 : ℚ) < 2 ^ t := zpow_pos two_pos t
  rw [value_of_carry split, scaled, ← sub_mul, abs_mul, abs_of_pos positive, unit]
  exact mul_le_mul_of_nonneg_right near positive.le

/-! ## Sums and quotients -/

/-- The leading bit of a mantissa gives the number up to a factor of two. -/
theorem log2_bracket {n : Nat} (pos : 0 < n) (e : Int) :
    (2 : ℚ) ^ (n.log2 + e) ≤ n * 2 ^ e ∧ (n * 2 ^ e : ℚ) < 2 ^ (n.log2 + e + 1) := by
  have unit : (0 : ℚ) < 2 ^ e := zpow_pos two_pos e
  have window := (Nat.log2_eq_iff pos.ne').1 (rfl : n.log2 = n.log2)
  constructor
  · rw [zpow_add₀ two_ne_zero, zpow_natCast]
    exact mul_le_mul_of_nonneg_right (by exact_mod_cast window.1) unit.le
  · rw [add_right_comm, zpow_add₀ two_ne_zero]
    refine mul_lt_mul_of_pos_right ?_ unit
    exact_mod_cast window.2

/-- The leading bit of a number of at least one does not stand behind the point. -/
theorem log2_of_one_le {n : Nat} (pos : 0 < n) {e : Int} (large : (1 : ℚ) ≤ n * 2 ^ e) :
    0 < (n.log2 : Int) + e + 1 := by
  refine (zpow_lt_zpow_iff_right₀ (one_lt_two : (1 : ℚ) < 2)).1 ?_
  rw [zpow_zero]
  exact large.trans_lt (log2_bracket pos e).2

/-- A mantissa moved to a smaller exponent stands for the same number. -/
theorem shiftLeft_value (m : Nat) {e c : Int} (below : c ≤ e) :
    ((m <<< (e - c).toNat : Nat) : ℚ) * 2 ^ c = m * 2 ^ e := by
  rw [Nat.shiftLeft_eq, Nat.cast_mul, Nat.cast_pow, Nat.cast_ofNat, mul_assoc, ← zpow_natCast,
    ← zpow_add₀ two_ne_zero]
  congr 2
  omega

theorem round_eq (s : Sign) {n : Nat} {e : Int} (wide : 2 ^ 52 ≤ n) :
    UnpackedFloat.round .binary64 s n e = roundWithAccuracy .binary64 s n e .exact := by
  have log : 52 ≤ n.log2 := (Nat.le_log2 (by omega)).2 wide
  have none : (e - max ((n.log2 : Int) + e - 52) (-1074)).toNat = 0 := by omega
  simp only [UnpackedFloat.round, decreaseExponent, targetExponent_eq, none]
  simp

/-- A sum below `2 ^ L`, of a normal number of at least one and a positive double, is off by half a
unit in the last place of the numbers just below `2 ^ L` at most. -/
theorem add_near {m₁ m₂ : Nat} {e₁ e₂ L : Int} (pos₁ : 0 < m₁) (pos₂ : 0 < m₂)
    (wide : 2 ^ 52 ≤ m₁) (large : (1 : ℚ) ≤ m₁ * 2 ^ e₁)
    (small : (m₁ * 2 ^ e₁ + m₂ * 2 ^ e₂ : ℚ) < 2 ^ L) :
    ∃ m e pos, UnpackedFloat.add .binary64 (.finite .positive m₁ e₁ pos₁)
        (.finite .positive m₂ e₂ pos₂) = .finite .positive m e pos ∧ Fits m e ∧ e ≤ L - 52 ∧
      |(m * 2 ^ e - (m₁ * 2 ^ e₁ + m₂ * 2 ^ e₂) : ℚ)| ≤ 2 ^ (L - 54) := by
  obtain ⟨c, least⟩ : ∃ c, c = min e₁ e₂ := ⟨_, rfl⟩
  obtain ⟨n₁, aligned₁⟩ : ∃ n, n = m₁ <<< (e₁ - c).toNat := ⟨_, rfl⟩
  obtain ⟨n₂, aligned₂⟩ : ∃ n, n = m₂ <<< (e₂ - c).toNat := ⟨_, rfl⟩
  have value₁ : (n₁ : ℚ) * 2 ^ c = m₁ * 2 ^ e₁ := aligned₁ ▸ shiftLeft_value m₁ (by omega)
  have value₂ : (n₂ : ℚ) * 2 ^ c = m₂ * 2 ^ e₂ := aligned₂ ▸ shiftLeft_value m₂ (by omega)
  have value : ((n₁ + n₂ : Nat) : ℚ) * 2 ^ c = m₁ * 2 ^ e₁ + m₂ * 2 ^ e₂ := by
    rw [Nat.cast_add, add_mul, value₁, value₂]
  have wider : 2 ^ 52 ≤ n₁ + n₂ := by
    have grown : m₁ ≤ n₁ := by
      rw [aligned₁, Nat.shiftLeft_eq]
      exact Nat.le_mul_of_pos_right _ (Nat.two_pow_pos _)
    omega
  have bracket := log2_bracket (show 0 < n₁ + n₂ by omega) c
  have positive₂ : (0 : ℚ) < m₂ * 2 ^ e₂ :=
    mul_pos (by exact_mod_cast pos₂) (zpow_pos two_pos e₂)
  rw [value] at bracket
  have below : ((n₁ + n₂).log2 : Int) + c < L :=
    (zpow_lt_zpow_iff_right₀ one_lt_two).1 (bracket.1.trans_lt small)
  have above := log2_of_one_le (show 0 < n₁ + n₂ by omega) (e := c) (by rw [value]; linarith)
  obtain ⟨m, e, pos, rounded, fits, high, near⟩ :=
    round_near .positive (Marks.of_exact (n₁ + n₂)) wider (e := c) (by omega)
  refine ⟨m, e, pos, ?_, fits, by omega, ?_⟩
  · have sum : ((n₁ : Int) + n₂).toNat = n₁ + n₂ := by omega
    have order : compare ((n₁ : Int) + n₂) 0 = .gt := compare_gt_iff_gt.2 (by omega)
    rw [← rounded, ← round_eq .positive wider, UnpackedFloat.add]
    simp only [decreaseExponent, Sign.apply, UnpackedFloat.normalize, ← least, ← aligned₁,
      ← aligned₂, order, sum]
  · rw [value] at near
    refine near.trans (zpow_le_zpow_right₀ one_le_two ?_)
    omega

/-- A quotient of two positive normal numbers that is itself normal is off by half a unit of its
last place at most. -/
theorem div_near {m₁ m₂ : Nat} {e₁ e₂ : Int} (pos₁ : 0 < m₁) (pos₂ : 0 < m₂)
    (full₁ : m₁.log2 = 52) (full₂ : m₂.log2 = 52) (normal : -1021 ≤ e₁ - e₂) :
    ∃ m e pos, UnpackedFloat.div .binary64 (.finite .positive m₁ e₁ pos₁)
        (.finite .positive m₂ e₂ pos₂) = .finite .positive m e pos ∧ Fits m e ∧ e ≤ e₁ - e₂ - 51 ∧
      |(m * 2 ^ e - m₁ * 2 ^ e₁ / (m₂ * 2 ^ e₂) : ℚ)| ≤ 2 ^ (e₁ - e₂ - 53) := by
  have window₁ := (Nat.log2_eq_iff pos₁.ne').1 full₁
  have window₂ := (Nat.log2_eq_iff pos₂.ne').1 full₂
  obtain ⟨num, shifted⟩ : ∃ num, num = m₁ * 2 ^ 53 := ⟨_, rfl⟩
  have wide : 2 ^ 52 ≤ num / m₂ := (Nat.le_div_iff_mul_le pos₂).2 (by omega)
  have short : (num / m₂).log2 < 54 :=
    (Nat.log2_lt (by omega)).2 ((Nat.div_lt_iff_lt_mul pos₂).2 (by omega))
  have long : 52 ≤ (num / m₂).log2 := (Nat.le_log2 (by omega)).2 wide
  obtain ⟨m, e, pos, rounded, fits, high, near⟩ :=
    round_near .positive (Marks.of_quotient num pos₂) wide (e := e₁ - e₂ - 53) (by omega)
  refine ⟨m, e, pos, ?_, fits, by omega, ?_⟩
  · have target : min (e₁ - e₂) (Format.binary64.targetExponent
        (totalExponent m₁ e₁ - totalExponent m₂ e₂)) = e₁ - e₂ - 53 := by
      have one : Nat.log2 1 = 0 := by decide
      have difference : totalExponent m₁ e₁ - totalExponent m₂ e₂ =
          totalExponent 1 (e₁ - e₂ - 1) := by
        simp only [totalExponent, full₁, full₂, one]
        omega
      rw [difference, targetExponent_eq, one]
      omega
    have amount : (e₁ - e₂ - (e₁ - e₂ - 53)).toNat = 53 := by omega
    rw [← rounded, UnpackedFloat.div]
    simp only [divCore, target, amount, Nat.shiftLeft_eq, ← shifted]
    rfl
  · have value : (num / m₂ : ℚ) * 2 ^ (e₁ - e₂ - 53) = m₁ * 2 ^ e₁ / (m₂ * 2 ^ e₂) := by
      have scale : (2 : ℚ) ^ (e₁ - e₂ - 53) = 2 ^ e₁ / 2 ^ e₂ / 2 ^ 53 := by
        rw [zpow_sub₀ two_ne_zero, zpow_sub₀ two_ne_zero]
        rfl
      rw [scale, shifted]
      push_cast
      field_simp
      norm_num
    rw [value] at near
    refine near.trans (zpow_le_zpow_right₀ one_le_two ?_)
    omega

end Double

end AugmentedLagrangian

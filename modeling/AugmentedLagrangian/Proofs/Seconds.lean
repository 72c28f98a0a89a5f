/- # AugmentedLagrangian.Proofs.Seconds — which durations survive as numbers of seconds

A double that is not negative `Holds` a rational number, and its word counts that number in units of
the format (`Holds.units_eq`).  The number of seconds of a duration is a sum and a quotient of whole
numbers, each rounded once, so it is off by less than half a nanosecond as long as the last place of
the sum is (`ofSeconds_toSeconds`).
-/
import AugmentedLagrangian.Duration
import AugmentedLagrangian.Proofs.ReadBack
import AugmentedLagrangian.Proofs.Rounding

namespace AugmentedLagrangian

set_option autoImplicit false

/-! ## Doubles that hold a number -/

namespace Binary64

theorem unitsPerOne_cast_pos : (0 : ℚ) < unitsPerOne := by
  exact_mod_cast unitsPerOne_pos

/-- Units are the significand at its power. -/
theorem units_value (word : Nat) :
    (units word : ℚ) = significand word * 2 ^ ((power word : Int) - 1074) * unitsPerOne := by
  obtain ⟨N, exponent, one⟩ := unitsPerOne_eq
  have places : (power word : Int) - 1074 + N = power word := by
    rw [exponent]
    exact sub_add_cancel _ _
  have powers : (2 : ℚ) ^ power word = 2 ^ ((power word : Int) - 1074) * 2 ^ N := by
    rw [← zpow_natCast, ← zpow_natCast, ← zpow_add₀ two_ne_zero, places]
  rw [units, one, Nat.shiftLeft_eq, Nat.cast_mul, Nat.cast_pow, Nat.cast_pow, Nat.cast_ofNat,
    powers, mul_assoc]

end Binary64

namespace Double

open Float.Model Float.Model.UnpackedFloat

/-- The double is this number, which is not negative. -/
inductive Holds (x : Float) : ℚ → Prop
  | zero {s : Sign} (read : x.toModel.unpack = .zero s) : Holds x 0
  | finite {m : Nat} {e : Int} {pos : 0 < m} (read : x.toModel.unpack = .finite .positive m e pos) :
      Holds x (m * 2 ^ e)

namespace Holds

variable {x y : Float} {v w : ℚ}

/-- What holds a number is finite. -/
theorem wordOf_lt (holds : Holds x v) : Binary64.wordOf x < Binary64.infinityWord := by
  by_contra beyond
  rcases Nat.lt_or_eq_of_le (Nat.not_lt.1 beyond) with lt | eq
  · have none : x.toModel.unpack = .notANumber := by
      rw [Binary64.eq_nan_of_wordOf lt]
      rfl
    cases holds with
    | zero read => rw [none] at read; cases read
    | finite read => rw [none] at read; cases read
  · have infinite : ∃ s, x.toModel.unpack = .infinity s := by
      rw [← Binary64.toFloat_wordOf x, ← eq]
      cases Binary64.isNegative x
      · exact ⟨_, rfl⟩
      · exact ⟨_, rfl⟩
    obtain ⟨s, infinite⟩ := infinite
    cases holds with
    | zero read => rw [infinite] at read; cases read
    | finite read => rw [infinite] at read; cases read

/-- The word counts the number in units of the format. -/
theorem units_eq (holds : Holds x v) :
    (Binary64.units (Binary64.wordOf x) : ℚ) = v * Binary64.unitsPerOne := by
  rcases Binary64.unpack_of_finite holds.wordOf_lt with ⟨none, read⟩ | ⟨m, e, pos, read, parts⟩
  · have nothing : v = 0 := by
      cases holds with
      | zero => rfl
      | finite read' => rw [read] at read'; cases read'
    rw [none, nothing, zero_mul]
    rfl
  · have value : v = m * 2 ^ e := by
      cases holds with
      | zero read' => rw [read] at read'; cases read'
      | finite read' =>
          obtain ⟨-, rfl, rfl⟩ := UnpackedFloat.finite.inj (read'.symm.trans read)
          rfl
    rw [Binary64.units_value, value, parts.1, parts.2]

theorem not_lt_zero (holds : Holds x v) : ¬ x < 0.0 := by
  have zero : placeOf 0.0 = toLex (0, toLex (0, 0)) := by decide
  rw [lt_iff, zero, placeOf]
  rintro ⟨-, -, below⟩
  cases holds with
  | zero read => rw [read] at below; simp [place] at below
  | finite read => rw [read] at below; simp [place, Prod.Lex.toLex_lt_toLex] at below

/-- A positive word is held as its units. -/
theorem of_word {word : Nat} (finite : word < Binary64.infinityWord) :
    Holds (Binary64.toFloat false word) (Binary64.units word / Binary64.unitsPerOne) := by
  obtain ⟨same, sign⟩ := Binary64.wordOf_toFloat finite
  have one : (Binary64.unitsPerOne : ℚ) ≠ 0 := Binary64.unitsPerOne_cast_pos.ne'
  rcases Binary64.unpack_of_finite (same.symm ▸ finite) with ⟨none, read⟩ | ⟨m, e, pos, read, parts⟩
  · obtain rfl : word = 0 := same.symm.trans none
    have nothing : Binary64.units 0 = 0 := rfl
    rw [nothing, Nat.cast_zero, zero_div]
    exact .zero read
  · rw [Binary64.signOf_eq_positive sign] at read
    rw [same] at parts
    rw [Binary64.units_value, mul_div_cancel_right₀ _ one, ← parts.1, ← parts.2]
    exact .finite read

/-- Whole numbers of up to 53 bits are held. -/
theorem ofNat {n : Nat} (short : n < 2 ^ 53) : Holds (Binary64.ofNat n) n := by
  have one : (Binary64.unitsPerOne : ℚ) ≠ 0 := Binary64.unitsPerOne_cast_pos.ne'
  rcases Nat.eq_zero_or_pos n with rfl | pos
  · rw [Nat.cast_zero]
    exact Holds.zero rfl
  · obtain ⟨finite, units⟩ := Binary64.units_ofRatio pos short
    have holds := of_word finite
    rw [units, Nat.cast_mul, mul_div_cancel_right₀ _ one] at holds
    exact holds

/-- A number of at least one has a full mantissa. -/
theorem full_of_one_le {m : Nat} {e : Int} {pos : 0 < m}
    (read : x.toModel.unpack = .finite .positive m e pos) (large : (1 : ℚ) ≤ m * 2 ^ e) :
    2 ^ 52 ≤ m ∧ m.log2 = 52 ∧ -52 ≤ e := by
  obtain ⟨lt, -, full⟩ : Fits m e := fits_of_unpack read
  have bits : m.log2 < 53 := (Nat.log2_lt pos.ne').2 lt
  have leads := log2_of_one_le pos large
  have wide : 2 ^ 52 ≤ m := by omega
  have long : 52 ≤ m.log2 := (Nat.le_log2 pos.ne').2 wide
  exact ⟨wide, by omega, by omega⟩

/-- A sum is off by half a unit of its last place. -/
theorem add {L : Int} (first : Holds x v) (second : Holds y w) (large : v = 0 ∨ 1 ≤ v)
    (small : v + w < 2 ^ L) (within : L ≤ 1000) :
    ∃ u, Holds (x + y) u ∧ |u - (v + w)| ≤ 2 ^ (L - 54) := by
  have unpacked : (x + y).toModel.unpack = UnpackedFloat.unpack .binary64
      (UnpackedFloat.pack .binary64
        (UnpackedFloat.add .binary64 x.toModel.unpack y.toModel.unpack)) := rfl
  have again (z : Float) : UnpackedFloat.unpack .binary64
      (UnpackedFloat.pack .binary64 z.toModel.unpack) = z.toModel.unpack :=
    congrArg (UnpackedFloat.unpack .binary64) (pack_unpack z.toModel.valid)
  cases first with
  | @zero s₁ read₁ =>
      -- zero adds nothing
      refine ⟨w, ?_, by rw [zero_add, sub_self, abs_zero]; positivity⟩
      cases second with
      | @zero s₂ read₂ =>
          rw [read₁, read₂] at unpacked
          cases s₁ <;> cases s₂ <;> exact Holds.zero unpacked
      | @finite m₂ e₂ pos₂ read₂ =>
          have same : UnpackedFloat.add .binary64 x.toModel.unpack y.toModel.unpack =
              y.toModel.unpack := by
            rw [read₁, read₂]
            rfl
          rw [same, again] at unpacked
          exact Holds.finite (unpacked.trans read₂)
  | @finite m₁ e₁ pos₁ read₁ =>
      have large : (1 : ℚ) ≤ m₁ * 2 ^ e₁ := large.resolve_left (by positivity)
      have wide := (full_of_one_le read₁ large).1
      cases second with
      | @zero s₂ read₂ =>
          have same : UnpackedFloat.add .binary64 x.toModel.unpack y.toModel.unpack =
              x.toModel.unpack := by
            rw [read₁, read₂]
            rfl
          rw [same, again] at unpacked
          exact ⟨_, Holds.finite (unpacked.trans read₁), by simp; positivity⟩
      | @finite m₂ e₂ pos₂ read₂ =>
          obtain ⟨m, e, pos, sum, fits, high, near⟩ := add_near pos₁ pos₂ wide large small
          have read : (x + y).toModel.unpack = .finite .positive m e pos := by
            rw [unpacked, read₁, read₂, sum, unpack_pack .positive pos fits, if_pos (by omega)]
          exact ⟨_, .finite read, near⟩

/-- Of whole numbers the quotient below one is off by half a unit of its last place. -/
theorem div (first : Holds x v) (second : Holds y w) (large : v = 0 ∨ 1 ≤ v) (above : 1 ≤ w)
    (below : v ≤ w) (short : w < 2 ^ 53) :
    ∃ u, Holds (x / y) u ∧ |u - v / w| ≤ 2 ^ (-53 : Int) := by
  have unpacked : (x / y).toModel.unpack = UnpackedFloat.unpack .binary64
      (UnpackedFloat.pack .binary64
        (UnpackedFloat.div .binary64 x.toModel.unpack y.toModel.unpack)) := rfl
  cases second with
  | zero => exact absurd above (by norm_num)
  | @finite m₂ e₂ pos₂ read₂ =>
      obtain ⟨wide₂, full₂, -⟩ := full_of_one_le read₂ above
      cases first with
      | @zero s read =>
          refine ⟨0, ?_, by rw [zero_div, sub_self, abs_zero]; positivity⟩
          rw [read, read₂, UnpackedFloat.div] at unpacked
          generalize s / Sign.positive = s' at unpacked
          cases s' <;> exact .zero unpacked
      | @finite m₁ e₁ pos₁ read₁ =>
          have large : (1 : ℚ) ≤ m₁ * 2 ^ e₁ := large.resolve_left (by positivity)
          obtain ⟨wide₁, full₁, least⟩ := full_of_one_le read₁ large
          have bracket₁ := log2_bracket pos₁ e₁
          have bracket₂ := log2_bracket pos₂ e₂
          rw [full₁] at bracket₁
          rw [full₂] at bracket₂
          have smaller : (52 : Int) + e₂ < 53 :=
            (zpow_lt_zpow_iff_right₀ (one_lt_two : (1 : ℚ) < 2)).1
              (bracket₂.1.trans_lt (by exact_mod_cast short))
          have order : (52 : Int) + e₁ < 52 + e₂ + 1 :=
            (zpow_lt_zpow_iff_right₀ (one_lt_two : (1 : ℚ) < 2)).1
              (bracket₁.1.trans_lt (below.trans_lt bracket₂.2))
          obtain ⟨m, e, pos, quotient, fits, high, near⟩ :=
            div_near pos₁ pos₂ full₁ full₂ (show -1021 ≤ e₁ - e₂ by omega)
          have read : (x / y).toModel.unpack = .finite .positive m e pos := by
            rw [unpacked, read₁, read₂, quotient, unpack_pack .positive pos fits,
              if_pos (by omega)]
          exact ⟨_, .finite read, near.trans (zpow_le_zpow_right₀ one_le_two (by omega))⟩

end Holds

end Double

/-! ## Durations -/

namespace Duration

open Double (Holds)

theorem holds_billion : Holds 1e9 1000000000 := by
  have read : (1e9 : Float).toModel.unpack =
      .finite .positive 8388608000000000 (-23) (by decide) := rfl
  convert Holds.finite read
  norm_num

/-- The number of seconds is off by less than half a nanosecond. -/
theorem holds_toSeconds {d : Duration} (short : d.nanoseconds < 2 ^ 23 * nanosPerSecond) :
    ∃ u, Holds d.toSeconds u ∧ |u * 1000000000 - d.nanoseconds| < 1 / 2 := by
  have split : d.nanoseconds = d.seconds * 1000000000 + d.subsecond :=
    (Nat.div_add_mod' d.nanoseconds nanosPerSecond).symm
  have rest : d.subsecond < 1000000000 := Nat.mod_lt _ (by decide)
  have whole : d.seconds < 2 ^ 23 := Nat.div_lt_of_lt_mul (by rwa [Nat.mul_comm])
  have parts : (d.nanoseconds : ℚ) = d.seconds * 1000000000 + d.subsecond := by
    exact_mod_cast split
  have rest_le : (d.subsecond : ℚ) ≤ 999999999 := by exact_mod_cast Nat.le_of_lt_succ rest
  have whole_le : (d.seconds : ℚ) + 1 ≤ 2 ^ 23 := by exact_mod_cast whole
  have zero_or_one_le (n : Nat) : (n : ℚ) = 0 ∨ 1 ≤ (n : ℚ) := by
    exact_mod_cast Nat.eq_zero_or_pos n
  -- the quotient is off by far less than a nanosecond, and the sum by almost half of one
  obtain ⟨q, quotient, near⟩ := (Holds.ofNat (show d.subsecond < 2 ^ 53 by omega)).div holds_billion
    (zero_or_one_le _) (by norm_num) (by linarith) (by norm_num)
  rw [abs_sub_le_iff] at near
  norm_num at near
  have small : (d.seconds : ℚ) + q < 2 ^ (23 : Int) := by
    norm_num at whole_le ⊢
    linarith
  obtain ⟨u, sum, near_sum⟩ := (Holds.ofNat (show d.seconds < 2 ^ 53 by omega)).add quotient
    (zero_or_one_le _) small (by norm_num)
  rw [abs_sub_le_iff] at near_sum
  norm_num at near_sum
  refine ⟨u, sum, ?_⟩
  rw [parts, abs_sub_lt_iff]
  constructor <;> linarith

/-- Durations below about 97 days come back to the nanosecond. -/
theorem ofSeconds_toSeconds {d : Duration} (short : d.nanoseconds < 2 ^ 23 * nanosPerSecond) :
    ofSeconds d.toSeconds = some d := by
  obtain ⟨u, holds, near⟩ := holds_toSeconds short
  have one := Binary64.unitsPerOne_cast_pos
  have units := holds.units_eq
  rw [abs_sub_lt_iff] at near
  have rounded : Binary64.roundDiv
      (Binary64.units (Binary64.wordOf d.toSeconds) * nanosPerSecond) Binary64.unitsPerOne =
      d.nanoseconds := by
    apply Binary64.roundDiv_near
    · have below : 2 * (u * 1000000000) < 2 * d.nanoseconds + 1 := by linarith
      have scaled := mul_lt_mul_of_pos_right below one
      have counted : (2 * (Binary64.units (Binary64.wordOf d.toSeconds) * 1000000000) : ℚ) <
          (2 * d.nanoseconds + 1) * Binary64.unitsPerOne := by
        rw [units]
        linarith
      exact_mod_cast counted
    · have above : (2 * d.nanoseconds : ℚ) < 2 * (u * 1000000000) + 1 := by linarith
      have scaled := mul_lt_mul_of_pos_right above one
      have counted : (2 * d.nanoseconds * Binary64.unitsPerOne : ℚ) <
          2 * (Binary64.units (Binary64.wordOf d.toSeconds) * 1000000000) +
            Binary64.unitsPerOne := by
        rw [units]
        linarith
      exact_mod_cast counted
  have accepted : ¬ (d.toSeconds < 0.0 ∨
      Binary64.infinityWord ≤ Binary64.wordOf d.toSeconds) :=
    not_or.2 ⟨holds.not_lt_zero, Nat.not_le.2 holds.wordOf_lt⟩
  rw [ofSeconds]
  simp only [if_neg accepted, rounded]
  exact dif_pos d.inRange

/-- From there on they need not: two nanoseconds share their number of seconds. -/
example : ofSeconds (⟨2 ^ 23 * nanosPerSecond + 1, by decide⟩ : Duration).toSeconds =
    some ⟨2 ^ 23 * nanosPerSecond + 2, by decide⟩ := by
  decide +kernel

end Duration

end AugmentedLagrangian

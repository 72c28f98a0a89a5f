/- # AugmentedLagrangian.Proofs.ReadBack — the digits of a number read back as the number

`Binary64.ofRatio` depends on the value of the ratio alone (`ofRatio_mul`), takes the number of a
finite word to that word (`ofRatio_units`), and whole numbers of up to 53 bits to their own words
(`units_ofRatio`).  `Binary64.ofDecimal` is the same rounding of a decimal value: where it computes
no power of ten, the value is so large or so small that rounding gives the same word
(`ofDecimal_eq`).  So a final zero can be moved into the exponent (`ofDecimal_mul_ten`), and trimming
does not change what is read.

`Decimal.fewestDigits` takes no candidate that does not read back, and falls back to the exact
expansion of the number, which does (`fewestDigits_readsBack`).
-/
import Mathlib
import AugmentedLagrangian.Decimal.Shortest

namespace AugmentedLagrangian

set_option autoImplicit false

namespace Binary64

/-! ## Rounding a ratio -/

theorem roundDiv_mul {k : Nat} (pos : 0 < k) (num den : Nat) :
    roundDiv (k * num) (k * den) = roundDiv num den := by
  have below (a b : Nat) : 2 * (k * a) < k * b ↔ 2 * a < b := by
    rw [Nat.mul_left_comm]
    exact Nat.mul_lt_mul_left pos
  have above (a b : Nat) : k * b < 2 * (k * a) ↔ b < 2 * a := by
    rw [Nat.mul_left_comm]
    exact Nat.mul_lt_mul_left pos
  simp only [roundDiv, Nat.mul_div_mul_left _ _ pos, Nat.mul_mod_mul_left, below, above]

/-- An exact quotient is not rounded. -/
theorem roundDiv_mul_self {den : Nat} (pos : 0 < den) (n : Nat) : roundDiv (n * den) den = n := by
  simp [roundDiv, Nat.mul_div_cancel _ pos, pos]

theorem roundDiv_one (n : Nat) : roundDiv n 1 = n := by
  simpa using roundDiv_mul_self Nat.one_pos n

/-- Less than half is rounded to nothing. -/
theorem roundDiv_eq_zero {num den : Nat} (small : 2 * num < den) : roundDiv num den = 0 := by
  have lt : num < den := by omega
  simp [roundDiv, Nat.div_eq_of_lt lt, Nat.mod_eq_of_lt lt, small]

theorem roundDiv_mul_add {n den r : Nat} (less : r < den) :
    roundDiv (n * den + r) den =
      if 2 * r < den then n else if den < 2 * r then n + 1 else if n % 2 = 0 then n else n + 1 := by
  have pos : 0 < den := Nat.zero_lt_of_lt less
  have quotient : (n * den + r) / den = n := by
    rw [Nat.add_comm, Nat.add_mul_div_right _ _ pos, Nat.div_eq_of_lt less, Nat.zero_add]
  have rest : (n * den + r) % den = r := by
    rw [Nat.add_comm, Nat.add_mul_mod_self_right, Nat.mod_eq_of_lt less]
  rw [roundDiv, quotient, rest]

/-- What is nearer than a half is rounded to. -/
theorem roundDiv_near {num den n : Nat} (below : 2 * num < (2 * n + 1) * den)
    (above : 2 * n * den < 2 * num + den) : roundDiv num den = n := by
  rw [Nat.add_mul, Nat.mul_assoc, Nat.one_mul] at below
  rw [Nat.mul_assoc] at above
  by_cases reached : n * den ≤ num
  · obtain ⟨r, rfl⟩ := Nat.exists_eq_add_of_le reached
    rw [roundDiv_mul_add (by omega), if_pos (by omega)]
  · cases n with
    | zero => omega
    | succ n =>
        rw [Nat.succ_mul n den] at below above reached
        obtain ⟨r, rfl⟩ : ∃ r, num = n * den + r := ⟨num - n * den, by omega⟩
        rw [roundDiv_mul_add (by omega), if_neg (by omega), if_pos (by omega)]

/-- The exponent has a name here, so that nobody computes the power. -/
theorem unitsPerOne_eq : ∃ n, n = 1074 ∧ unitsPerOne = 2 ^ n := by
  obtain ⟨n, exponent⟩ : ∃ n, n = 1074 := ⟨_, rfl⟩
  refine ⟨n, exponent, ?_⟩
  rw [unitsPerOne, ← exponent, Nat.one_shiftLeft]

theorem unitsPerOne_pos : 0 < unitsPerOne := by
  obtain ⟨n, -, units⟩ := unitsPerOne_eq
  rw [units]
  exact Nat.two_pow_pos n

/-- Only the value of the ratio counts. -/
theorem ofRatio_mul {k : Nat} (pos : 0 < k) (num den : Nat) :
    ofRatio (k * num) (k * den) = ofRatio num den := by
  simp only [ofRatio, Nat.mul_assoc k, Nat.mul_div_mul_left _ _ pos, Nat.shiftLeft_eq,
    roundDiv_mul pos]

/-- A whole number of units is cut to 53 bits. -/
theorem ofRatio_unitsPerOne (n : Nat) :
    ofRatio n unitsPerOne =
      min infinityWord ((n.log2 + 1 - 53) * binade + roundDiv n (2 ^ (n.log2 + 1 - 53))) := by
  simp only [ofRatio, Nat.shiftLeft_eq, Nat.mul_comm n unitsPerOne, roundDiv_mul unitsPerOne_pos,
    Nat.mul_div_cancel_left n unitsPerOne_pos]

theorem units_ne_zero {word : Nat} (pos : 0 < word) : units word ≠ 0 := by
  have some : significand word ≠ 0 := by
    rw [significand]
    split
    · exact Nat.ne_of_gt pos
    · exact Nat.ne_of_gt (Nat.add_pos_right _ (by decide))
  rw [units, Nat.shiftLeft_eq]
  exact Nat.mul_ne_zero some (Nat.ne_of_gt (Nat.two_pow_pos _))

/-- The number of a finite word is the nearest to itself. -/
theorem ofRatio_units {word : Nat} (finite : word < infinityWord) :
    ofRatio (units word) unitsPerOne = word := by
  have size : binade = 2 ^ 52 := rfl
  rw [ofRatio_unitsPerOne, units, significand, power, Nat.shiftLeft_eq]
  by_cases small : word / binade = 0
  · have short : word.log2 + 1 - 53 = 0 := by
      have lt : word < 2 ^ 52 := (Nat.div_eq_zero_iff_lt (by decide)).1 small
      rcases Nat.eq_zero_or_pos word with rfl | pos
      · simp
      · have := (Nat.log2_lt (by omega)).2 lt
        omega
    rw [if_pos small, small]
    simp only [Nat.zero_sub, Nat.pow_zero, Nat.mul_one, short, roundDiv_one, Nat.zero_mul,
      Nat.zero_add]
    omega
  · have mod : word % binade < binade := Nat.mod_lt _ (by decide)
    have parts : binade * (word / binade) + word % binade = word := Nat.div_add_mod word binade
    generalize word % binade = r at *
    obtain ⟨p, quotient⟩ := Nat.exists_eq_succ_of_ne_zero small
    rw [quotient, Nat.succ_eq_add_one, Nat.mul_succ] at parts
    have log : ((r + binade) * 2 ^ p).log2 = 52 + p := by
      have positive : (r + binade) * 2 ^ p ≠ 0 :=
        Nat.mul_ne_zero (by omega) (Nat.ne_of_gt (Nat.two_pow_pos p))
      rw [Nat.log2_eq_iff positive, Nat.pow_add, Nat.add_right_comm, Nat.pow_add]
      exact ⟨Nat.mul_le_mul_right _ (by omega),
        Nat.mul_lt_mul_of_pos_right (by omega) (Nat.two_pow_pos p)⟩
    have cut : 52 + p + 1 - 53 = p := by omega
    rw [if_neg small, quotient, Nat.succ_eq_add_one, Nat.add_sub_cancel, log, cut,
      roundDiv_mul_self (Nat.two_pow_pos _), Nat.mul_comm p]
    omega

/-- A normal word is its mantissa and its power. -/
theorem significand_power {d m : Nat} (least : 2 ^ 52 ≤ m) (below : m < 2 ^ 53) :
    significand (d * 2 ^ 52 + m) = m ∧ power (d * 2 ^ 52 + m) = d := by
  have size : binade = 2 ^ 52 := rfl
  have quotient : (d * 2 ^ 52 + m) / 2 ^ 52 = d + 1 := by omega
  have rest : (d * 2 ^ 52 + m) % 2 ^ 52 + 2 ^ 52 = m := by omega
  rw [significand, power, size, quotient, if_neg (Nat.succ_ne_zero d), rest]
  exact ⟨rfl, rfl⟩

/-- Whole numbers of up to 53 bits have a word. -/
theorem units_ofRatio {n : Nat} (pos : 0 < n) (short : n < 2 ^ 53) :
    ofRatio n 1 < infinityWord ∧ units (ofRatio n 1) = n * unitsPerOne := by
  obtain ⟨N, exponent, one⟩ := unitsPerOne_eq
  have size : binade = 2 ^ 52 := rfl
  have some : n ≠ 0 := Nat.ne_of_gt pos
  have window := (Nat.log2_eq_iff some).1 (rfl : n.log2 = n.log2)
  -- the mantissa fills 53 bits, and the rest of the units are doublings
  obtain ⟨k, d, doublings, full, split, most⟩ : ∃ k d, n.log2 + N + 1 - 53 = d ∧
      n.log2 + k = 52 ∧ N = k + d ∧ d ≤ 1074 := by
    have bits : n.log2 < 53 := (Nat.log2_lt some).2 short
    exact ⟨52 - n.log2, n.log2 + N + 1 - 53, by omega, by omega, by omega, by omega⟩
  clear exponent
  have log : (n * 2 ^ N).log2 = n.log2 + N := by
    have positive : n * 2 ^ N ≠ 0 := Nat.mul_ne_zero some (Nat.ne_of_gt (Nat.two_pow_pos N))
    rw [Nat.log2_eq_iff positive, Nat.add_right_comm, Nat.pow_add, Nat.pow_add]
    exact ⟨Nat.mul_le_mul_right _ window.1,
      Nat.mul_lt_mul_of_pos_right window.2 (Nat.two_pow_pos N)⟩
  have least : 2 ^ 52 ≤ n * 2 ^ k := by
    rw [← full, Nat.pow_add]
    exact Nat.mul_le_mul_right _ window.1
  have below : n * 2 ^ k < 2 ^ 53 := by
    have fills : 2 ^ (n.log2 + 1) * 2 ^ k = 2 ^ 53 := by
      rw [← Nat.pow_add, Nat.add_right_comm, full]
    rw [← fills]
    exact Nat.mul_lt_mul_of_pos_right window.2 (Nat.two_pow_pos k)
  have scaled : n * 2 ^ N = n * 2 ^ k * 2 ^ d := by rw [Nat.mul_assoc, ← Nat.pow_add, split]
  have finite : d * 2 ^ 52 + n * 2 ^ k < infinityWord := by
    have room : d * 2 ^ 52 ≤ 1074 * 2 ^ 52 := Nat.mul_le_mul_right _ most
    exact Nat.lt_of_le_of_lt (Nat.add_le_add room (Nat.le_of_lt below)) (by decide)
  have word : ofRatio n 1 = d * 2 ^ 52 + n * 2 ^ k := by
    rw [ofRatio, one, Nat.div_one, log, doublings, Nat.one_shiftLeft, scaled,
      roundDiv_mul_self (Nat.two_pow_pos d), size, Nat.min_eq_right (Nat.le_of_lt finite)]
  obtain ⟨mantissa, exponent⟩ := significand_power (d := d) least below
  rw [word, units, mantissa, exponent, one, scaled, Nat.shiftLeft_eq]
  exact ⟨finite, rfl⟩

/-! ## Decimal values -/

theorem pow_ten_le (k : Nat) : 2 ^ (3 * k) ≤ 10 ^ k := by
  rw [Nat.pow_mul]
  exact Nat.pow_le_pow_left (by decide) k

/-- So large a value is infinite. -/
theorem ofRatio_large {digits k : Nat} (some : digits ≠ 0) (large : 400 < k) :
    ofRatio (digits * 10 ^ k) 1 = infinityWord := by
  obtain ⟨n, exponent, units⟩ := unitsPerOne_eq
  have wide : 2 ^ (3 * k + n) ≤ digits * 10 ^ k * unitsPerOne := by
    rw [Nat.pow_add, units]
    refine Nat.mul_le_mul_right _ (Nat.le_trans (pow_ten_le k) ?_)
    exact Nat.le_mul_of_pos_left _ (Nat.pos_of_ne_zero some)
  have log : 3 * k + n ≤ (digits * 10 ^ k * unitsPerOne).log2 :=
    (Nat.le_log2 (Nat.ne_of_gt (Nat.lt_of_lt_of_le (Nat.two_pow_pos _) wide))).2 wide
  simp only [ofRatio, Nat.div_one]
  generalize (digits * 10 ^ k * unitsPerOne).log2 = l at log ⊢
  have beyond : infinityWord ≤ (l + 1 - 53) * binade :=
    Nat.le_trans (by decide) (Nat.mul_le_mul_right binade (show 2047 ≤ l + 1 - 53 by omega))
  exact Nat.min_eq_left (Nat.le_trans beyond (Nat.le_add_right _ _))

/-- So small a value is nothing. -/
theorem ofRatio_small {digits k : Nat} (small : 400 + digits.log2 + 1 < k) :
    ofRatio digits (10 ^ k) = 0 := by
  obtain ⟨n, exponent, units⟩ := unitsPerOne_eq
  have tiny : 2 * (digits * unitsPerOne) < 10 ^ k := by
    calc 2 * (digits * unitsPerOne) < 2 * (2 ^ (digits.log2 + 1) * 2 ^ n) := by
          rw [units]
          refine Nat.mul_lt_mul_of_pos_left (Nat.mul_lt_mul_of_pos_right Nat.lt_log2_self ?_) ?_
          · exact Nat.two_pow_pos _
          · decide
      _ = 2 ^ (digits.log2 + 1 + n + 1) := by
          rw [← Nat.pow_add, ← Nat.pow_succ']
      _ ≤ 2 ^ (3 * k) := Nat.pow_le_pow_right (by decide) (by omega)
      _ ≤ 10 ^ k := pow_ten_le k
  have none : digits * unitsPerOne / 10 ^ k = 0 := Nat.div_eq_of_lt (by omega)
  simp only [ofRatio, none, Nat.log2_zero]
  rw [show 0 + 1 - 53 = 0 from rfl, Nat.zero_mul, Nat.shiftLeft_zero, roundDiv_eq_zero tiny]
  rfl

/-- Reading a decimal value is rounding it, also where no power of ten is computed. -/
theorem ofDecimal_eq {digits : Nat} (some : digits ≠ 0) (exponent : Int) :
    ofDecimal digits exponent =
      ofRatio (digits * 10 ^ exponent.toNat) (10 ^ (-exponent).toNat) := by
  rw [ofDecimal, if_neg some]
  by_cases large : 400 < exponent
  · rw [if_pos large, show (-exponent).toNat = 0 by omega, Nat.pow_zero,
      ofRatio_large some (by omega)]
  rw [if_neg large]
  by_cases small : exponent + (digits.log2 + 1 : Nat) < -400
  · rw [if_pos small, show exponent.toNat = 0 by omega, Nat.pow_zero, Nat.mul_one,
      ofRatio_small (by omega)]
  rw [if_neg small]
  by_cases whole : 0 ≤ exponent
  · rw [if_pos whole, show (-exponent).toNat = 0 by omega]
    rfl
  · rw [if_neg whole, show exponent.toNat = 0 by omega, Nat.pow_zero, Nat.mul_one]
    rfl

/-- A final zero may stand in the exponent. -/
theorem ofDecimal_mul_ten {digits : Nat} (some : digits ≠ 0) (exponent : Int) :
    ofDecimal (digits * 10) exponent = ofDecimal digits (exponent + 1) := by
  rw [ofDecimal_eq some, ofDecimal_eq (Nat.mul_ne_zero some (by decide))]
  by_cases whole : 0 ≤ exponent
  · rw [show (exponent + 1).toNat = exponent.toNat + 1 by omega,
      show (-exponent).toNat = 0 by omega, show (-(exponent + 1)).toNat = 0 by omega,
      Nat.pow_succ', Nat.mul_assoc]
  · rw [show exponent.toNat = 0 by omega, show (exponent + 1).toNat = 0 by omega,
      show (-exponent).toNat = (-(exponent + 1)).toNat + 1 by omega, Nat.pow_succ', Nat.pow_zero,
      Nat.mul_one, Nat.mul_one, Nat.mul_comm digits]
    exact ofRatio_mul (by decide) _ _

/-- Final zeros may stand in the exponent. -/
theorem ofDecimal_mul_pow {digits : Nat} (some : digits ≠ 0) (exponent : Int) (zeros : Nat) :
    ofDecimal (digits * 10 ^ zeros) exponent = ofDecimal digits (exponent + zeros) := by
  induction zeros generalizing exponent with
  | zero => simp
  | succ zeros ih =>
      rw [Nat.pow_succ, ← Nat.mul_assoc,
        ofDecimal_mul_ten (Nat.mul_ne_zero some (Nat.ne_of_gt (Nat.pow_pos (by decide)))), ih]
      congr 1
      omega

/-- A binary fraction is a decimal one. -/
theorem ofDecimal_mul_five {n : Nat} (some : n ≠ 0) (k : Nat) :
    ofDecimal (n * 5 ^ k) (-(k : Int)) = ofRatio n (1 <<< k) := by
  have five : 0 < 5 ^ k := Nat.pow_pos (by decide)
  rw [ofDecimal_eq (Nat.mul_ne_zero some (Nat.ne_of_gt five)), show (-(k : Int)).toNat = 0 by omega,
    show (-(-(k : Int))).toNat = k by omega, Nat.pow_zero, Nat.mul_one, Nat.one_shiftLeft,
    show 10 = 5 * 2 from rfl, Nat.mul_pow, Nat.mul_comm n]
  exact ofRatio_mul five n _

end Binary64

namespace Decimal

open Binary64

/-- The word that the digits are read as. -/
def Digits.word (d : Digits) : Nat :=
  ofDecimal d.digits d.exponent

/-- Digits that are read as something are not zero. -/
theorem Digits.digits_ne_zero {d : Digits} (some : d.word ≠ 0) : d.digits ≠ 0 := by
  intro none
  rw [word, none] at some
  exact some rfl

theorem Digits.word_trimUpTo (room : Nat) (d : Digits) : (d.trimUpTo room).word = d.word := by
  induction room generalizing d with
  | zero => rfl
  | succ room ih =>
      rw [trimUpTo]
      split
      · rename_i trims
        obtain ⟨some, zero⟩ := trims
        have digits : d.digits / 10 * 10 = d.digits := by omega
        have quotient : d.digits / 10 ≠ 0 := by omega
        rw [ih, word, word, ← ofDecimal_mul_ten quotient, digits]
      · rfl

/-- Trimming does not change what is read. -/
theorem Digits.word_trim (d : Digits) : d.trim.word = d.word :=
  d.word_trimUpTo _

/-- A candidate is taken only if it reads back. -/
theorem withDigits_readsBack {word num den count : Nat} {d : Digits}
    (found : withDigits word num den count = some d) : d.word = word := by
  simp only [withDigits] at found
  generalize neighbour num den (pointPlace num den - count) = near at found
  generalize (if near.2 = true then (near.1 + 1, near.1) else (near.1, near.1 + 1)) = candidates
    at found
  by_cases first : (ofDecimal candidates.1 (pointPlace num den - count) == word) = true
  · rw [if_pos first] at found
    cases found
    exact eq_of_beq first
  rw [if_neg first] at found
  by_cases second : (ofDecimal candidates.2 (pointPlace num den - count) == word) = true
  · rw [if_pos second] at found
    cases found
    exact eq_of_beq second
  · rw [if_neg second] at found
    cases found

/-- The exact expansion reads back. -/
theorem exactDigits_readsBack {word : Nat} (pos : 0 < word) (finite : word < infinityWord) :
    (exactDigits word).word = word := by
  obtain ⟨k, exponent, units⟩ : ∃ k, k = 1074 ∧ unitsPerOne = 1 <<< k := ⟨1074, rfl, rfl⟩
  have places : (-1074 : Int) = -(k : Int) := by omega
  rw [exactDigits, Digits.word, ← exponent, places, Nat.pow_eq,
    ofDecimal_mul_five (units_ne_zero pos), ← units]
  exact ofRatio_units finite

/-- The fewest digits read back. -/
theorem fewestDigits_readsBack {word : Nat} (pos : 0 < word) (finite : word < infinityWord) :
    (fewestDigits word).word = word := by
  rw [fewestDigits]
  split
  · rename_i d found
    rw [Digits.word_trim]
    obtain ⟨i, -, found⟩ := List.exists_of_findSome?_eq_some found
    exact withDigits_readsBack found
  · rw [Digits.word_trim, exactDigits_readsBack pos finite]

end Decimal

end AugmentedLagrangian

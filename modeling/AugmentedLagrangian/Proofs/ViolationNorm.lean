/- # AugmentedLagrangian.Proofs.ViolationNorm — what the norm of a violation shows

The norm is a running maximum that starts at zero.  The larger of two values passes over an operand
that is no number, so the fold itself has to carry such an entry past those that follow.  `Maximum`
is the invariant: after some entries the fold holds no number if one of them is none, and else the
largest of zero and their magnitudes.  A magnitude that is not above zero is zero itself, so the
norm of a vector with entries is the magnitude of one of them.
-/
import AugmentedLagrangian.Proofs.Invalid

namespace AugmentedLagrangian

set_option autoImplicit false

open Scalar (isNaN magnitude larger normInf)

/-! ## Magnitudes -/

namespace Double

open Float.Model Float.Model.UnpackedFloat

@[simp] theorem isNaN_magnitude (x : Float) : isNaN (magnitude x) = isNaN x := by
  have packed := isNaN_unpack_pack (UnpackedFloat.abs x.toModel.unpack)
  have unpacked : (UnpackedFloat.abs x.toModel.unpack).isNaN = x.toModel.unpack.isNaN := by
    rcases x.toModel.unpack with _ | _ | _ | _ <;> rfl
  exact packed.trans unpacked

/-- The magnitude of a number is the positive zero or above it. -/
theorem magnitude_cases {x : Float} (number : isNaN x = false) :
    magnitude x = 0.0 ∨ 0.0 < magnitude x := by
  have packed : magnitude x = .ofModel (Float.Model.pack (UnpackedFloat.abs x.toModel.unpack)) :=
    rfl
  have zero : placeOf 0.0 = toLex (0, toLex (0, 0)) := by decide
  have above (positive : toLex (0, toLex (0, 0)) < placeOf (magnitude x)) : 0.0 < magnitude x :=
    (lt_iff _ _).2 ⟨by decide, (isNaN_magnitude x).trans number, zero ▸ positive⟩
  have place : placeOf (magnitude x) = Double.place (UnpackedFloat.unpack .binary64
    (UnpackedFloat.pack .binary64 (UnpackedFloat.abs x.toModel.unpack))) := rfl
  cases read : x.toModel.unpack with
  | notANumber =>
      have invalid : x.toModel.unpack.isNaN = false := number
      rw [read] at invalid
      cases invalid
  | zero s =>
      rw [packed, read]
      exact .inl rfl
  | infinity s =>
      rw [packed, read]
      right
      show 0.0 < Float.ofModel (Float.Model.pack (.infinity .positive))
      decide
  | finite s m e pos =>
      refine .inr (above ?_)
      have fits := fits_of_unpack read
      rw [place, read]
      show _ < Double.place (UnpackedFloat.unpack .binary64
        (UnpackedFloat.pack .binary64 (.finite .positive m e pos)))
      rw [unpack_pack _ pos fits]
      split <;> simp [Double.place, Prod.Lex.toLex_lt_toLex]

end Double

/-! ## The running maximum -/

namespace Scalar

/-- The norm goes on to one more entry. -/
def normNext (acc x : Float) : Float :=
  if isNaN x || isNaN acc then nan else larger acc (magnitude x)

theorem normInf_eq_foldl (v : List Float) : normInf v = v.foldl normNext 0.0 := rfl

/-- No number if one of the entries is none, and else the largest of zero and their magnitudes. -/
structure Maximum (seen : List Float) (acc : Float) : Prop where
  isNaN_iff : isNaN acc = true ↔ ∃ x ∈ seen, isNaN x = true
  magnitude_le : isNaN acc = false → ∀ x ∈ seen, magnitude x ≤ acc
  attained : isNaN acc = false → acc = 0.0 ∨ acc ∈ seen.map magnitude

theorem maximum_nil : Maximum [] 0.0 where
  isNaN_iff := by simp; decide
  magnitude_le _ := List.forall_mem_nil _
  attained _ := .inl rfl

/-- Once there is no number, none of the entries to come brings one back. -/
theorem isNaN_normNext (acc x : Float) :
    isNaN (normNext acc x) = true ↔ isNaN x = true ∨ isNaN acc = true := by
  rw [normNext, ← Bool.or_eq_true]
  cases invalid : isNaN x || isNaN acc with
  | true => simp [Ieee.isNaN_nan]
  | false =>
      have acc_number : isNaN acc = false := (Bool.or_eq_false_iff.1 invalid).2
      simp [number_larger acc_number]

/-- Between numbers the step is the maximum. -/
theorem normNext_eq {acc x : Float} (number : isNaN (normNext acc x) = false) :
    isNaN x = false ∧ isNaN acc = false ∧ normNext acc x = larger acc (magnitude x) := by
  have neither := mt (isNaN_normNext acc x).2 (Bool.eq_false_iff.1 number)
  rw [not_or, Bool.not_eq_true, Bool.not_eq_true] at neither
  obtain ⟨hx, hacc⟩ := neither
  exact ⟨hx, hacc, by rw [normNext, hx, hacc]; rfl⟩

theorem larger_eq_or {R : Type} [Scalar R] (a b : R) : larger a b = a ∨ larger a b = b := by
  unfold larger
  split_ifs <;> simp

/-- One more entry. -/
theorem Maximum.next {seen : List Float} {acc : Float} (maximum : Maximum seen acc) (x : Float) :
    Maximum (seen ++ [x]) (normNext acc x) where
  isNaN_iff := by
    rw [isNaN_normNext, maximum.isNaN_iff]
    simp [or_comm]
  magnitude_le number := by
    obtain ⟨x_number, acc_number, step⟩ := normNext_eq number
    rw [step, List.forall_mem_append, List.forall_mem_singleton]
    constructor
    · intro y member
      exact le_trans (maximum.magnitude_le acc_number y member) (le_larger_left acc_number)
    · exact le_larger_right ((Double.isNaN_magnitude x).trans x_number)
  attained number := by
    obtain ⟨-, acc_number, step⟩ := normNext_eq number
    rw [step, List.map_append, List.mem_append]
    rcases larger_eq_or acc (magnitude x) with same | same
    · rw [same]
      exact (maximum.attained acc_number).imp_right .inl
    · rw [same]
      exact .inr (.inr (List.mem_singleton_self _))

/-- The fold goes on to all entries. -/
theorem Maximum.foldl {seen : List Float} {acc : Float} (maximum : Maximum seen acc)
    (v : List Float) : Maximum (seen ++ v) (v.foldl normNext acc) := by
  induction v generalizing seen acc with
  | nil =>
      rw [List.append_nil]
      exact maximum
  | cons x v ih =>
      have rest := ih (maximum.next x)
      rw [List.append_assoc] at rest
      exact rest

theorem maximum_normInf (v : List Float) : Maximum v (normInf v) := by
  rw [normInf_eq_foldl]
  exact maximum_nil.foldl v

/-! ## The norm -/

theorem number_normInf_iff {v : List Float} : isNaN (normInf v) = false ↔ Numbers v := by
  rw [← Bool.not_eq_true, (maximum_normInf v).isNaN_iff]
  simp [Numbers]

/-- The norm of numbers is the magnitude of one of them. -/
theorem normInf_mem {v : List Float} (numbers : Numbers v) (some : v ≠ []) :
    normInf v ∈ v.map magnitude := by
  have maximum := maximum_normInf v
  have number := number_normInf_iff.2 numbers
  rcases maximum.attained number with zero | attained
  · obtain ⟨x, member⟩ := List.exists_mem_of_ne_nil v some
    -- where the maximum is zero, all magnitudes are
    have least := maximum.magnitude_le number x member
    rw [zero] at least
    rcases Double.magnitude_cases (numbers x member) with same | positive
    · rw [zero, ← same]
      exact List.mem_map_of_mem member
    · exact absurd least (not_le_of_lt positive)
  · exact attained

/-- A norm is within a tolerance if all entries are. -/
theorem normInf_le_iff {δ : Float} (least : 0.0 ≤ δ) {v : List Float} :
    normInf v ≤ δ ↔ Numbers v ∧ ∀ x ∈ v, magnitude x ≤ δ := by
  have maximum := maximum_normInf v
  constructor
  · intro within
    have number := isNaN_left within
    refine ⟨number_normInf_iff.1 number, fun x member => ?_⟩
    exact le_trans (maximum.magnitude_le number x member) within
  · rintro ⟨numbers, within⟩
    rcases maximum.attained (number_normInf_iff.2 numbers) with zero | attained
    · rw [zero]
      exact least
    · obtain ⟨x, member, same⟩ := List.mem_map.1 attained
      rw [← same]
      exact within x member

/-- The norm of a vector is no number exactly if one of its entries is none.  Otherwise it is the
largest magnitude, and zero if there are no entries.  So it is within a tolerance exactly if all
entries are numbers and within it. -/
theorem norm_shows_all {δ : Float} (least : 0.0 ≤ δ) (v : List Float) :
    (isNaN (normInf v) = true ↔ ∃ x ∈ v, isNaN x = true) ∧
      (Numbers v → (∀ x ∈ v, magnitude x ≤ normInf v) ∧
        if v = [] then normInf v = 0.0 else normInf v ∈ v.map magnitude) ∧
      (normInf v ≤ δ ↔ Numbers v ∧ ∀ x ∈ v, magnitude x ≤ δ) := by
  refine ⟨(maximum_normInf v).isNaN_iff, fun numbers => ⟨?_, ?_⟩, normInf_le_iff least⟩
  · exact (maximum_normInf v).magnitude_le (number_normInf_iff.2 numbers)
  · split
    · rename_i empty
      rw [empty]
      rfl
    · rename_i some
      exact normInf_mem numbers some

/-- An entry that is no number shows however many numbers follow it, and a norm of numbers is one of
their magnitudes. -/
theorem norm_shows_early :
    (0.0 : Float) ≤ 2.0 ∧ isNaN (normInf [nan, 2.0, -0.5]) = true ∧
      ¬ normInf [nan, 2.0, -0.5] ≤ (2.0 : Float) ∧ Numbers [-2.0, 0.5] ∧
      normInf [-2.0, 0.5] ∈ [-2.0, 0.5].map (magnitude (R := Float)) ∧
      normInf [-2.0, 0.5] ≤ (2.0 : Float) := by
  have least : (0.0 : Float) ≤ 2.0 := by decide
  have numbers : Numbers ([-2.0, 0.5] : List Float) := by
    simp only [Numbers, List.forall_mem_cons]
    exact ⟨by decide, by decide, List.forall_mem_nil _⟩
  have within : ∀ x ∈ ([-2.0, 0.5] : List Float), magnitude x ≤ 2.0 := by
    simp only [List.forall_mem_cons]
    exact ⟨by decide, by decide, List.forall_mem_nil _⟩
  obtain ⟨invalid, -, bounded⟩ := norm_shows_all least [nan, 2.0, -0.5]
  obtain ⟨-, largest, small⟩ := norm_shows_all least [-2.0, 0.5]
  refine ⟨least, invalid.2 ⟨nan, List.mem_cons_self, by decide⟩, fun le => ?_, numbers,
    (largest numbers).2, small.2 ⟨numbers, within⟩⟩
  have number := (bounded.1 le).1 nan List.mem_cons_self
  exact absurd number (by decide)

end Scalar

end AugmentedLagrangian

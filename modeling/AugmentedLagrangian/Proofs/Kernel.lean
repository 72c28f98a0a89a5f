/- # AugmentedLagrangian.Proofs.Kernel — the passes over the multipliers

The kernel runs one pass when all constraints share a weight and another when each has its own.
Sharing a weight is having it as one's own (`sharedPass_eq`), so whatever holds of the second pass
holds of the kernel, under the weights `spread` over all constraints (`shifted_eq`), and a weight that
is repeated for all constraints is as good as one (`shifted_replicate`).

The second pass overwrites the constraint values while it adds up the terms of `dᵀŷ`.  Told entry by
entry it is the box's own offset, weighed, and a sum from the left of its terms
(`shifted_eq_offset`).  None of this needs a law of the arithmetic: the same operations are performed
in the same order, whatever they return (`layouts_agree`).

Clipping pins each multiplier between two bounds that lie on either side of zero
(`range_around_zero`), which is why they are in order.  The bound at zero is felt only by a
multiplier with the wrong sign (`clipOne_of_signs`).
-/
import AugmentedLagrangian.Multipliers
import AugmentedLagrangian.Proofs.Order

namespace AugmentedLagrangian

set_option autoImplicit false
set_option linter.unusedSectionVars false

/-! ## Vectors entry by entry -/

section Entries

variable {α β γ : Type} {m : Nat}

theorem exists_ofFn {xs : List α} (full : xs.length = m) : ∃ f : Fin m → α, xs = List.ofFn f :=
  ⟨fun i => xs.get (i.cast full.symm), by subst full; exact List.ofFn_getElem.symm⟩

theorem zipWith_ofFn (f : α → β → γ) (a : Fin m → α) (b : Fin m → β) :
    List.zipWith f (List.ofFn a) (List.ofFn b) = List.ofFn fun i => f (a i) (b i) := by
  apply List.ext_getElem
  · simp
  · intro i _ _
    simp

end Entries

variable {R : Type} [Scalar R]

/-- How far the shifted constraint value lies from its interval. -/
def Interval.shiftedOffset (i : Interval R) (g y σ : R) : R :=
  i.offset (g + 1.0 / σ * y)

/-- The constraint's term of `dᵀŷ`. -/
def Interval.squaredOffset (i : Interval R) (g y σ : R) : R :=
  i.shiftedOffset g y σ * σ * i.shiftedOffset g y σ

namespace Multipliers

section Loops

variable {m : Nat}

theorem eachPass_eq_foldl (acc : R) (is : Fin m → Interval R) (g y σ : Fin m → R) :
    eachPass acc (List.ofFn is) (List.ofFn g) (List.ofFn y) (List.ofFn σ) =
      ((List.ofFn fun i => (is i).squaredOffset (g i) (y i) (σ i)).foldl (· + ·) acc,
        List.ofFn fun i => σ i * (is i).shiftedOffset (g i) (y i) (σ i)) := by
  induction m generalizing acc with
  | zero => rfl
  | succ m ih =>
      simp only [List.ofFn_succ, eachPass, ih, List.foldl_cons]
      rfl

theorem residual_ofFn (is : Fin m → Interval R) (g y σ : Fin m → R) :
    residual (List.ofFn is) (List.ofFn g) (List.ofFn y) (List.ofFn σ) =
      List.ofFn fun i => g i - (is i).project (g i + y i / σ i) := by
  induction m with
  | zero => rfl
  | succ m ih => simp only [List.ofFn_succ, residual, ih]

theorem clip_ofFn (limit : R) (lo hi y : Fin m → R) :
    clip limit (List.ofFn lo) (List.ofFn hi) (List.ofFn y) =
      List.ofFn fun i => clipOne limit (lo i) (hi i) (y i) := by
  induction m with
  | zero => rfl
  | succ m ih => simp only [List.ofFn_succ, clip, ih]

end Loops

/-! ## One weight or one each -/

/-- One weight for all of `m` constraints; more weights are one each. -/
def spread (m : Nat) : List R → List R
  | [σ] => List.replicate m σ
  | weights => weights

theorem spread_of_length {m : Nat} {weights : List R} (length : weights.length = m) :
    spread m weights = weights := by
  subst length
  unfold spread
  split
  · rfl
  · rfl

theorem sharedPass_eq (σ acc : R) (is : List (Interval R)) (gs ys : List R) :
    sharedPass σ (1.0 / σ) acc is gs ys =
      eachPass acc is gs ys (List.replicate is.length σ) := by
  induction is generalizing acc gs ys with
  | nil => rfl
  | cons i is ih =>
      cases gs with
      | nil => rfl
      | cons g gs =>
          cases ys with
          | nil => rfl
          | cons y ys => rw [List.length_cons, List.replicate_succ, sharedPass, eachPass, ih]

/-- The kernel gives the same for one weight and for as many of it as there are constraints. -/
theorem shifted_replicate (box : Box R) (g y : List R) (σ : R) :
    shifted box g y (List.replicate box.size σ) = shifted box g y [σ] := by
  by_cases one : box.size = 1
  · rw [one, List.replicate_one]
  · have several : ∀ σ', List.replicate box.size σ ≠ [σ'] := by
      intro σ' same
      apply one
      simpa using congrArg List.length same
    unfold shifted
    split
    · rfl
    · split
      · rename_i same
        exact absurd same (several _)
      · rw [if_pos List.length_replicate, sharedPass_eq]
        rfl

/-- With vectors of the right lengths the kernel succeeds, with what the pass over the spread
weights gives. -/
theorem shifted_eq {box : Box R} {g y weights : List R} (hg : g.length = box.size)
    (hy : y.length = box.size) (some : weights.length = 1 ∨ weights.length = box.size) :
    shifted box g y weights =
      .done (eachPass 0.0 box.intervals g y (spread box.size weights)).2
        (eachPass 0.0 box.intervals g y (spread box.size weights)).1 := by
  unfold shifted
  rw [if_neg (by omega)]
  split
  · rename_i σ
    rw [sharedPass_eq]
    rfl
  · rename_i several
    have length : weights.length = box.size := by
      rcases some with one | all
      · obtain ⟨σ, rfl⟩ := List.length_eq_one_iff.1 one
        exact absurd rfl (several σ)
      · exact all
    rw [if_pos length, spread_of_length length]

/-- With a weight for each constraint these are the weights of the pass. -/
theorem shifted_each {box : Box R} {g y weights : List R} (hg : g.length = box.size)
    (hy : y.length = box.size) (hσ : weights.length = box.size) :
    shifted box g y weights =
      .done (eachPass 0.0 box.intervals g y weights).2
        (eachPass 0.0 box.intervals g y weights).1 := by
  rw [shifted_eq hg hy (.inr hσ), spread_of_length hσ]

@[simp] theorem length_sharedPass (σ inverse acc : R) (is : List (Interval R)) (gs ys : List R) :
    (sharedPass σ inverse acc is gs ys).2.length = gs.length := by
  fun_induction sharedPass σ inverse acc is gs ys with
  | case1 acc i is g gs y ys d total rest same ih => simpa [same] using ih
  | case2 => rfl

@[simp] theorem length_eachPass (acc : R) (is : List (Interval R)) (gs ys σs : List R) :
    (eachPass acc is gs ys σs).2.length = gs.length := by
  fun_induction eachPass acc is gs ys σs with
  | case1 acc i is g gs y ys σ σs d total rest same ih => simpa [same] using ih
  | case2 => rfl

/-! ## Both layouts and the offset from the box -/

/-- The kernel has no outcome exactly if the weights are neither one nor one per constraint. -/
theorem shifted_breach_iff {box : Box R} {g y weights : List R} (hg : g.length = box.size)
    (hy : y.length = box.size) :
    (shifted box g y weights).outcome = .error .breach ↔
      weights.length ≠ 1 ∧ weights.length ≠ box.size := by
  by_cases some : weights.length = 1 ∨ weights.length = box.size
  · rw [shifted_eq hg hy some]
    exact ⟨nofun, fun none => absurd some (not_or.2 none)⟩
  · obtain ⟨several, other⟩ := not_or.1 some
    refine ⟨fun _ => ⟨several, other⟩, fun _ => ?_⟩
    unfold shifted
    rw [if_neg (by omega)]
    split
    · exact absurd rfl several
    · rw [if_neg other]
      rfl

/-- The points `g + Σ⁻¹y`, with each weight inverted. -/
def point (g y weights : List R) : List R :=
  List.zipWith (· + ·) g (List.zipWith (fun σ y => 1.0 / σ * y) weights y)

/-- With a weight for each constraint the kernel weighs how far the points lie from the box. -/
theorem shifted_eq_offset {box : Box R} {g y weights : List R} (hg : g.length = box.size)
    (hy : y.length = box.size) (hσ : weights.length = box.size) :
    shifted box g y weights =
      .done (List.zipWith (· * ·) weights (box.offset (point g y weights)))
        (Scalar.sum (List.zipWith (fun d σ => d * σ * d) (box.offset (point g y weights))
          weights)) := by
  rw [shifted_each hg hy hσ]
  obtain ⟨is⟩ := box
  generalize size : Box.size ⟨is⟩ = m at hg hy hσ
  obtain ⟨is, rfl⟩ := exists_ofFn (m := m) size
  obtain ⟨g, rfl⟩ := exists_ofFn hg
  obtain ⟨y, rfl⟩ := exists_ofFn hy
  obtain ⟨σ, rfl⟩ := exists_ofFn hσ
  simp only [Box.offset, point, zipWith_ofFn, eachPass_eq_foldl]
  rfl

/-- The kernel computes the same in both layouts of the weights, which is the weighed offset of the
points from the box and the sum of its terms, and has an outcome exactly in these layouts. -/
structure LayoutsAgree (box : Box R) (g y : List R) : Prop where
  shared : ∀ σ, shifted box g y [σ] = shifted box g y (List.replicate box.size σ)
  weighed : ∀ weights : List R, weights.length = box.size →
    shifted box g y weights =
      .done (List.zipWith (· * ·) weights (box.offset (point g y weights)))
        (Scalar.sum (List.zipWith (fun d σ => d * σ * d) (box.offset (point g y weights)) weights))
  breach_iff : ∀ weights : List R, (shifted box g y weights).outcome = .error .breach ↔
    weights.length ≠ 1 ∧ weights.length ≠ box.size

theorem layouts_agree {box : Box R} {g y : List R} (hg : g.length = box.size)
    (hy : y.length = box.size) : LayoutsAgree box g y where
  shared σ := (shifted_replicate box g y σ).symm
  weighed _ hσ := shifted_eq_offset hg hy hσ
  breach_iff _ := shifted_breach_iff hg hy

/-- Two constraints under weights of zero, one of whose values is no number. -/
theorem unweighed_layouts_agree :
    let box : Box Float := ⟨[.line, ⟨0.0, 1.0, by decide⟩]⟩
    [Scalar.nan, 2.0].length = box.size ∧ [Scalar.infinity, 0.0].length = box.size ∧
      shifted box [Scalar.nan, 2.0] [Scalar.infinity, 0.0] [0.0] =
        shifted box [Scalar.nan, 2.0] [Scalar.infinity, 0.0] [0.0, 0.0] ∧
      (shifted box [Scalar.nan, 2.0] [Scalar.infinity, 0.0] []).outcome = .error .breach :=
  ⟨rfl, rfl, (layouts_agree rfl rfl).shared 0.0, (layouts_agree rfl rfl).breach_iff [] |>.2 (by decide)⟩

/-! ## Clipping -/

@[simp] theorem length_clip (limit : R) (lowers uppers ys : List R) :
    (clip limit lowers uppers ys).length = ys.length := by
  fun_induction clip limit lowers uppers ys with
  | case1 lo lowers hi uppers y ys ih => simpa using ih
  | case2 => rfl

theorem clipOne_eq_pin (limit lower upper y : R) :
    clipOne limit lower upper y =
      Scalar.pin (range limit lower upper).1 (range limit lower upper).2 y := rfl

/-- Clipping keeps what is a number and what is not. -/
theorem isNaN_clipOne (limit lower upper y : R) :
    Scalar.isNaN (clipOne limit lower upper y) = Scalar.isNaN y :=
  Scalar.isNaN_pin ..

/-- The bounds of a multiplier lie on either side of zero. -/
theorem range_around_zero [Scalar.Signed R] {limit : R} (positive : 0.0 < limit)
    (lower upper : R) :
    (range limit lower upper).1 ≤ 0.0 ∧ 0.0 ≤ (range limit lower upper).2 := by
  have nonneg := Scalar.le_of_lt positive
  have nonpos : -limit ≤ 0.0 := Scalar.Signed.neg_le_zero positive
  have zero : (0.0 : R) ≤ 0.0 := Scalar.le_refl_of_number (Scalar.isNaN_left nonneg)
  unfold range
  constructor
  · show (if lower ≤ -Scalar.infinity then 0.0 else -limit) ≤ 0.0
    split <;> assumption
  · show 0.0 ≤ (if Scalar.infinity ≤ upper then 0.0 else limit)
    split <;> assumption

/-- A number that is not below zero without a lower bound, nor above zero without an upper, is
clipped as if there were both. -/
theorem clipOne_of_signs [Scalar.Signed R] {limit lower upper y : R} (positive : 0.0 < limit)
    (number : Scalar.isNaN y = false) (low : lower ≤ -Scalar.infinity → 0.0 ≤ y)
    (high : Scalar.infinity ≤ upper → y ≤ 0.0) :
    clipOne limit lower upper y = Scalar.pin (-limit) limit y := by
  have nonneg := Scalar.le_of_lt positive
  have nonpos : -limit ≤ 0.0 := Scalar.Signed.neg_le_zero positive
  -- a bound at zero and the bound at the limit leave the same of a value on the near side of both
  have least : Scalar.larger y (range limit lower upper).1 = Scalar.larger y (-limit) := by
    show Scalar.larger y (if lower ≤ -Scalar.infinity then 0.0 else -limit) = _
    split
    · rename_i free
      rw [Scalar.larger_eq_left (low free),
        Scalar.larger_eq_left (Scalar.le_trans nonpos (low free))]
    · rfl
  have most : Scalar.smaller (Scalar.larger y (-limit)) (range limit lower upper).2 =
      Scalar.smaller (Scalar.larger y (-limit)) limit := by
    show Scalar.smaller _ (if Scalar.infinity ≤ upper then 0.0 else limit) = _
    split
    · rename_i free
      have below : Scalar.larger y (-limit) ≤ 0.0 := Scalar.larger_le (high free) nonpos
      rw [Scalar.smaller_eq_left below, Scalar.smaller_eq_left (Scalar.le_trans below nonneg)]
    · rfl
  rw [clipOne_eq_pin, Scalar.pin, Scalar.pin, number, if_neg Bool.false_ne_true,
    if_neg Bool.false_ne_true, least, most]

end Multipliers

end AugmentedLagrangian

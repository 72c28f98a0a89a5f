/- # AugmentedLagrangian.Proofs.Renumbering — constraints in another order

A permutation of the constraints permutes every vector with an entry for each of them
(`renumber`).  A vector with `m` entries is a function of the constraint, and the loops over
constraints compute each entry from the entries with the same number; so told as functions they
commute with a permutation.

Three folds go over all constraints at once: the sum of the terms of `dᵀŷ`, the sum of squares, and
the norm.  In exact arithmetic their steps commute, infinities and what is no number included, so
they do not depend on the order (`Exact.sum_perm`, `Exact.normInf_perm`).
-/
import AugmentedLagrangian.Proofs.Division
import AugmentedLagrangian.Proofs.Exact
import AugmentedLagrangian.Proofs.Lengths

namespace AugmentedLagrangian

set_option autoImplicit false

open Scalar (larger smaller magnitude isNaN sum normInf)

/-! ## Vectors in another order -/

section Vectors

variable {α β γ : Type} {m : Nat}

/-- The vector whose entry `i` is the entry `π i`.  A vector that has not `m` entries is left as it
is. -/
def renumber (π : Equiv.Perm (Fin m)) (xs : List α) : List α :=
  if full : xs.length = m then List.ofFn fun i => xs.get ((π i).cast full.symm) else xs

variable (π : Equiv.Perm (Fin m))

@[simp] theorem renumber_ofFn (f : Fin m → α) : renumber π (List.ofFn f) = List.ofFn (f ∘ π) := by
  rw [renumber, dif_pos List.length_ofFn]
  exact congrArg List.ofFn (funext fun i => by simp)

@[simp] theorem length_renumber (xs : List α) : (renumber π xs).length = xs.length := by
  unfold renumber
  split
  · rename_i full
    rw [List.length_ofFn, full]
  · rfl

theorem renumber_eq_nil_iff {xs : List α} : renumber π xs = [] ↔ xs = [] := by
  rw [← List.length_eq_zero_iff, length_renumber, List.length_eq_zero_iff]

/-- Another order of the same entries. -/
theorem renumber_perm (xs : List α) : (renumber π xs).Perm xs := by
  by_cases full : xs.length = m
  · obtain ⟨f, rfl⟩ := exists_ofFn full
    rw [renumber_ofFn]
    exact π.ofFn_comp_perm f
  · rw [renumber, dif_neg full]

@[simp] theorem renumber_replicate (a : α) :
    renumber π (List.replicate m a) = List.replicate m a := by
  have constant : List.replicate m a = List.ofFn fun _ : Fin m => a := (List.ofFn_const m a).symm
  rw [constant, renumber_ofFn]
  rfl

theorem renumber_map (f : α → β) (xs : List α) :
    renumber π (xs.map f) = (renumber π xs).map f := by
  by_cases full : xs.length = m
  · obtain ⟨g, rfl⟩ := exists_ofFn full
    simp only [List.map_ofFn, renumber_ofFn]
    rfl
  · have short : (xs.map f).length ≠ m := by rwa [List.length_map]
    rw [renumber, renumber, dif_neg full, dif_neg short]

/-- The inverse permutation restores the order. -/
theorem renumber_symm (xs : List α) : renumber π (renumber π.symm xs) = xs := by
  by_cases full : xs.length = m
  · obtain ⟨f, rfl⟩ := exists_ofFn full
    simp only [renumber_ofFn, Function.comp_assoc]
    rw [Equiv.symm_comp_self, Function.comp_id]
  · have short : (renumber π.symm xs).length ≠ m := by rwa [length_renumber]
    rw [renumber, dif_neg short, renumber, dif_neg full]

end Vectors

/-! ## The growth of weights, entry by entry -/

section Loops

variable {R : Type} [Scalar R] {m : Nat}

/-- Whether a weight grows, when there is a violation to compare with. -/
def Weights.growsFrom (s : OuterSettings R) (first : Bool) (e old : R) : Bool :=
  first || decide (s.relPenaltyIncreaseThreshold * magnitude old < magnitude e)

theorem Weights.growEach?_ofFn (s : OuterSettings R) (factor normE : R) (first : Bool)
    (e old weights buffer : Fin m → R) :
    growEach? s factor first normE (List.ofFn e) (List.ofFn old) (List.ofFn weights)
        (List.ofFn buffer) =
      some (List.ofFn fun i =>
        if growsFrom s first (e i) (old i) then grown s factor normE (e i) (weights i)
        else weights i) := by
  induction m with
  | zero => rfl
  | succ m ih =>
      have known :
          grows? s first (e 0) (some (old 0)) = some (growsFrom s first (e 0) (old 0)) := by
        cases first <;> rfl
      simp only [List.ofFn_succ, growEach?, List.head?_cons, List.tail_cons, known, ih]
      rfl

end Loops

/-! ## Folds in exact arithmetic -/

namespace Exact

variable {K : Type} [Field K]

/-- Terms of a sum change places. -/
theorem add_swap (a b c : Exact K) : a + b + c = a + c + b := by
  cases a <;> cases b <;> cases c <;> first
    | rfl
    | exact congrArg fin (add_right_comm ..)

/-- Sums do not depend on the order. -/
theorem foldl_add_perm {as bs : List (Exact K)} (same : as.Perm bs) (start : Exact K) :
    as.foldl (· + ·) start = bs.foldl (· + ·) start :=
  same.foldl_eq' (fun a _ b _ start => add_swap start a b) start

variable [LinearOrder K]

theorem sum_perm {as bs : List (Exact K)} (same : as.Perm bs) : sum as = sum bs :=
  foldl_add_perm same _

/-- One step of the norm. -/
def normStep (acc a : Exact K) : Exact K :=
  if isNaN a || isNaN acc then .nan else larger acc (magnitude a)

theorem normStep_fin (a b : K) : normStep (fin a) (fin b) = fin (max a |b|) :=
  larger_fin a |b|

theorem normStep_negInf (b : K) : normStep negInf (fin b) = fin |b| := rfl

/-- Entries of a norm change places. -/
theorem normStep_swap (acc a b : Exact K) :
    normStep (normStep acc a) b = normStep (normStep acc b) a := by
  cases acc <;> cases a <;> cases b
  -- an infinity or what is no number is absorbed in either order
  all_goals first
    | rfl
    | (rw [normStep_fin]; rfl)
    | skip
  · rename_i a b
    rw [normStep_negInf, normStep_negInf, normStep_fin, normStep_fin, max_comm]
  · rename_i acc a b
    simp only [normStep_fin, max_right_comm]

/-- Norms do not depend on the order. -/
theorem normInf_perm {as bs : List (Exact K)} (same : as.Perm bs) : normInf as = normInf bs :=
  same.foldl_eq' (fun a _ b _ acc => normStep_swap acc a b) _

end Exact

/-! ## What is computed for all constraints -/

variable {K : Type} [Field K] [LinearOrder K] {m : Nat} (π : Equiv.Perm (Fin m))

/-- The box with its coordinates in another order. -/
def Box.renumbered {R : Type} [Scalar R] (b : Box R) : Box R :=
  ⟨renumber π b.intervals⟩

section Boxes

variable {R : Type} [Scalar R] (b : Box R)

@[simp] theorem Box.size_renumbered : (b.renumbered π).size = b.size :=
  length_renumber π b.intervals

theorem Box.lowers_renumbered : (b.renumbered π).lowers = renumber π b.lowers :=
  (renumber_map π Interval.lower b.intervals).symm

theorem Box.uppers_renumbered : (b.renumbered π).uppers = renumber π b.uppers :=
  (renumber_map π Interval.upper b.intervals).symm

theorem Multipliers.residual_renumber {is : List (Interval R)} {g y σ : List R}
    (hi : is.length = m) (hg : g.length = m) (hy : y.length = m) (hσ : σ.length = m) :
    residual (renumber π is) (renumber π g) (renumber π y) (renumber π σ) =
      renumber π (residual is g y σ) := by
  obtain ⟨is, rfl⟩ := exists_ofFn hi
  obtain ⟨g, rfl⟩ := exists_ofFn hg
  obtain ⟨y, rfl⟩ := exists_ofFn hy
  obtain ⟨σ, rfl⟩ := exists_ofFn hσ
  simp only [renumber_ofFn, residual_ofFn]
  rfl

theorem Multipliers.clip_renumber (limit : R) {y : List R} (hb : b.size = m)
    (hy : y.length = m) :
    clip limit (b.renumbered π).lowers (b.renumbered π).uppers (renumber π y) =
      renumber π (clip limit b.lowers b.uppers y) := by
  obtain ⟨lo, lowers⟩ := exists_ofFn (b.length_lowers.trans hb)
  obtain ⟨hi, uppers⟩ := exists_ofFn (b.length_uppers.trans hb)
  obtain ⟨y, rfl⟩ := exists_ofFn hy
  rw [Box.lowers_renumbered, Box.uppers_renumbered, lowers, uppers]
  simp only [renumber_ofFn, clip_ofFn]
  rfl

end Boxes

/-- The kernel turns permuted constraint values into permuted shifted multipliers, and returns the
same `dᵀŷ`. -/
theorem Multipliers.shifted_renumber {b : Box (Exact K)} {g y σ : List (Exact K)} (hb : b.size = m)
    (hg : g.length = m) (hy : y.length = m) (hσ : σ.length = m) :
    shifted (b.renumbered π) (renumber π g) (renumber π y) (renumber π σ) =
      (shifted b g y σ).on (renumber π) := by
  obtain ⟨is⟩ := b
  have permuted : (Box.renumbered π ⟨is⟩).size = m := (Box.size_renumbered π _).trans hb
  rw [shifted_each (by simp [permuted, hg]) (by simp [permuted, hy]) (by simp [permuted, hσ]),
    shifted_each (hg.trans hb.symm) (hy.trans hb.symm) (hσ.trans hb.symm), Written.on_done]
  obtain ⟨is, rfl⟩ := exists_ofFn (m := m) hb
  obtain ⟨g, rfl⟩ := exists_ofFn hg
  obtain ⟨y, rfl⟩ := exists_ofFn hy
  obtain ⟨σ, rfl⟩ := exists_ofFn hσ
  have terms := π.ofFn_comp_perm fun i => (is i).squaredOffset (g i) (y i) (σ i)
  simp only [Box.renumbered, renumber_ofFn, eachPass_eq_foldl]
  exact congrArg (Written.done _) (Exact.foldl_add_perm terms _)

/-! ## Weights -/

namespace Weights

/-- The first weight takes all constraint values together. -/
theorem initial_renumber (s : OuterSettings (Exact K)) (f : Exact K) (g : List (Exact K)) :
    initial s f (renumber π g) = initial s f g := by
  have squares : sum ((renumber π g).map fun v => v * v) = sum (g.map fun v => v * v) :=
    Exact.sum_perm ((renumber_perm π g).map _)
  rw [initial, initial, squares]

variable {R : Type} [Scalar R] {s : OuterSettings R}

/-- An update treats each constraint for itself.  With a single factor only the first weight counts,
and all weights are the same. -/
theorem update_renumber (factor normE oldNormE : R) (first : Bool) {e old weights : List R}
    (he : e.length = m) (ho : old.length = m) (hσ : weights.length = m)
    (uniform : s.singlePenaltyFactor = true → Uniform weights) :
    update s factor first (renumber π e) (renumber π old) normE oldNormE (renumber π weights)
        (renumber π weights) =
      (update s factor first e old normE oldNormE weights weights).on (renumber π) := by
  have stays : overwriteAll (renumber π weights) (renumber π weights) =
      (overwriteAll weights weights).on (renumber π) := by
    rw [overwriteAll, overwriteAll, if_pos rfl, if_pos rfl, Written.on_done]
  by_cases small : normE ≤ s.delta
  · unfold update
    rw [if_pos small, if_pos small]
    exact stays
  cases single : s.singlePenaltyFactor with
  | true =>
      rw [update_of_single small single, update_of_single small single]
      split
      · obtain ⟨weight, shared⟩ := uniform single
        have same : renumber π weights = weights := by
          rw [shared, hσ, renumber_replicate]
        rw [same]
        cases weights with
        | nil => exact congrArg (Written.failed · .breach) same.symm
        | cons head tail =>
            simp only [fill_eq_replicate, hσ, Written.on_done, renumber_replicate]
      · exact stays
  | false =>
      rw [update_of_each small single, update_of_each small single]
      obtain ⟨e, rfl⟩ := exists_ofFn he
      obtain ⟨old, rfl⟩ := exists_ofFn ho
      obtain ⟨weights, rfl⟩ := exists_ofFn hσ
      simp only [renumber_ofFn, growEach?_ofFn, Written.on_done]
      rfl

end Weights

end AugmentedLagrangian

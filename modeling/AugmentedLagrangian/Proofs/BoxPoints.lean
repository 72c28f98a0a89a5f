/- # AugmentedLagrangian.Proofs.BoxPoints — whether a box holds a finite point

The bounds of an interval are in order, so it holds its bounds, and a number is projected into it.
That is all that the order gives: the two intervals that consist of one infinity are in order as
well, and hold no finite value.

An interval that is neither is `Proper`.  It holds a finite value, and a finite value is projected
to a finite one.  So the finite points of space are projected to finite points of the box exactly if
its intervals are proper, which is exactly if the box holds one at all (`Box.Occupied`).

Bounds are not checked for this where they enter, and no edit undoes it elsewhere: a box is proper
at every moment exactly if it was when it was made and no improper interval is given to it.
-/
import AugmentedLagrangian.Proofs.BoxHistory

namespace AugmentedLagrangian

set_option autoImplicit false

open Scalar (isNaN isFinite infinity Numbers Ordered)

variable {R : Type} [Scalar R]

/-! ## One coordinate -/

namespace Interval

/-- Does not consist of one infinity. -/
def Proper (i : Interval R) : Prop :=
  i.lower < infinity ∧ -infinity < i.upper

theorem holds_eq_true {i : Interval R} {x : R} : i.holds x = true ↔ i.lower ≤ x ∧ x ≤ i.upper := by
  rw [holds, Bool.and_eq_true, decide_eq_true_iff, decide_eq_true_iff]

variable [Ordered R] {i : Interval R} {x : R}

theorem holds_project (number : isNaN x = false) : i.holds (i.project x) = true :=
  holds_eq_true.2 (Scalar.pin_within i.ordered number)

theorem proper_of_holds (finite : isFinite x = true) (holds : i.holds x = true) : i.Proper := by
  obtain ⟨above, below⟩ := Scalar.isFinite_iff.1 finite
  obtain ⟨least, most⟩ := holds_eq_true.1 holds
  exact ⟨Scalar.lt_of_le_of_lt least below, Scalar.lt_of_lt_of_le above most⟩

/-- A finite value below the bounds shows that the lower one is not `-∞`, and it is not `∞`; above
them the same holds of the upper one. -/
theorem isFinite_project (proper : i.Proper) (finite : isFinite x = true) :
    isFinite (i.project x) = true := by
  obtain ⟨above, below⟩ := Scalar.isFinite_iff.1 finite
  rw [Scalar.isFinite_iff, project]
  rcases Scalar.pin_cases i.ordered (Scalar.number_of_isFinite finite) with
    ⟨less, same⟩ | ⟨-, -, same⟩ | ⟨more, same⟩
  all_goals rw [same]
  · exact ⟨Scalar.lt_of_lt_of_le above (Scalar.le_of_lt less), proper.1⟩
  · exact ⟨above, below⟩
  · exact ⟨proper.2, Scalar.lt_of_le_of_lt (Scalar.le_of_lt more) below⟩

end Interval

namespace Box

/-! ## All coordinates -/

/-- No interval consists of one infinity. -/
def Proper (b : Box R) : Prop :=
  ∀ i ∈ b.intervals, i.Proper

/-- Finite points of space are projected to finite points of the box. -/
def KeepsFinite (b : Box R) : Prop :=
  ∀ z : List R, z.length = b.size → (∀ x ∈ z, isFinite x = true) →
    (∀ x ∈ b.project z, isFinite x = true) ∧ b.contains (b.project z) = true

/-- Some finite point lies in the box. -/
def HoldsFinite (b : Box R) : Prop :=
  ∃ z : List R, (∀ x ∈ z, isFinite x = true) ∧ b.contains z = true

/-- Whether a box is proper can be told from its two vectors. -/
theorem proper_iff {b : Box R} :
    b.Proper ↔ List.Forall₂ (fun lo hi => lo < infinity ∧ -infinity < hi) b.lowers b.uppers := by
  rw [lowers, uppers, List.forall₂_map_left_iff, List.forall₂_map_right_iff, List.forall₂_same]
  exact Iff.rfl

theorem contains_iff {b : Box R} {z : List R} :
    b.contains z = true ↔ List.Forall₂ (fun i x => i.holds x = true) b.intervals z := by
  rw [contains, Bool.and_eq_true, beq_iff_eq, List.all_eq_true, List.forall₂_iff_zip, size]
  constructor
  · rintro ⟨length, each⟩
    exact ⟨length.symm, fun member => each _ member⟩
  · rintro ⟨length, each⟩
    exact ⟨length.symm, fun _ member => each member⟩

/-- Each coordinate of a projection is the projection of a coordinate. -/
theorem mem_project {b : Box R} {z : List R} {p : R} (member : p ∈ b.project z) :
    ∃ i ∈ b.intervals, ∃ x ∈ z, p = i.project x := by
  rw [project, ← List.map_uncurry_zip_eq_zipWith] at member
  obtain ⟨⟨i, x⟩, pair, rfl⟩ := List.mem_map.1 member
  obtain ⟨left, right⟩ := List.of_mem_zip pair
  exact ⟨i, left, x, right, rfl⟩

variable [Ordered R]

/-- A vector of numbers is projected into the box. -/
theorem contains_project {b : Box R} {z : List R} (length : z.length = b.size)
    (numbers : Numbers z) : b.contains (b.project z) = true := by
  rw [contains_iff, project]
  obtain ⟨is⟩ := b
  induction is generalizing z with
  | nil => exact .nil
  | cons i is ih =>
      cases z with
      | nil => cases length
      | cons x z =>
          obtain ⟨first, rest⟩ := List.forall_mem_cons.1 numbers
          exact .cons (Interval.holds_project first) (ih rest (Nat.succ.inj length))

theorem Proper.keepsFinite {b : Box R} (proper : b.Proper) : b.KeepsFinite := by
  intro z length finite
  constructor
  · intro p member
    obtain ⟨i, interval, x, coordinate, rfl⟩ := mem_project member
    exact Interval.isFinite_project (proper i interval) (finite x coordinate)
  · apply contains_project length
    intro x member
    exact Scalar.number_of_isFinite (finite x member)

theorem HoldsFinite.proper {b : Box R} (holds : b.HoldsFinite) : b.Proper := by
  obtain ⟨z, finite, inside⟩ := holds
  rw [contains_iff] at inside
  obtain ⟨is⟩ := b
  show ∀ i ∈ is, i.Proper
  simp only at inside
  induction inside with
  | nil => exact List.forall_mem_nil _
  | cons holds _ ih =>
      obtain ⟨first, rest⟩ := List.forall_mem_cons.1 finite
      exact List.forall_mem_cons.2 ⟨Interval.proper_of_holds first holds, ih rest⟩

/-- The origin is projected to a finite point of the box. -/
theorem KeepsFinite.holdsFinite {b : Box Float} (keeps : b.KeepsFinite) : b.HoldsFinite := by
  have origin : ∀ x ∈ List.replicate b.size (0.0 : Float), isFinite x = true := by
    intro x member
    rw [List.eq_of_mem_replicate member]
    decide
  exact ⟨_, keeps _ List.length_replicate origin⟩

theorem keepsFinite_iff {b : Box Float} : b.KeepsFinite ↔ b.Proper :=
  ⟨fun keeps => keeps.holdsFinite.proper, Proper.keepsFinite⟩

theorem holdsFinite_iff {b : Box Float} : b.HoldsFinite ↔ b.Proper :=
  ⟨HoldsFinite.proper, fun proper => proper.keepsFinite.holdsFinite⟩

/-! ## Edits -/

theorem proper_line : (Interval.line : Interval Float).Proper :=
  ⟨by decide, by decide⟩

omit [Ordered R] in
/-- Each interval after an edit was there before, is free, or is the one that was given. -/
theorem mem_edit {b : Box R} {e : Edit R} {i : Interval R} (member : i ∈ (b.edit e).1.intervals) :
    i ∈ b.intervals ∨ i = .line ∨
      ∃ index, e = .set index i.lower i.upper ∧ (b.edit e).2 = none := by
  cases e with
  | set index lo hi =>
      cases done : b.set index lo hi with
      | error e =>
          rw [edit_of_error done] at member
          exact .inl member
      | ok b' =>
          rw [edit_of_done done] at member ⊢
          obtain ⟨-, given, rfl, rfl, replaced⟩ := set_eq_ok done
          rw [replaced] at member
          rcases List.mem_or_eq_of_mem_set member with old | rfl
          · exact .inl old
          · exact .inr (.inr ⟨index, rfl, rfl⟩)
  | resize k =>
      rcases List.mem_append.1 member with old | new
      · exact .inl (List.mem_of_mem_take old)
      · exact .inr (.inl (List.eq_of_mem_replicate new))

/-- The next edit keeps a box proper if it gives no improper interval. -/
theorem proper_edit {b : Box Float} {e : Edit Float} (proper : b.Proper)
    (given : ∀ index (i : Interval Float), e = .set index i.lower i.upper → (b.edit e).2 = none →
      i.Proper) : (b.edit e).1.Proper := by
  intro i member
  rcases mem_edit member with old | rfl | ⟨index, set, done⟩
  · exact proper i old
  · exact proper_line
  · exact given index i set done

omit [Ordered R] in
theorem moment_of_le (b : Box R) {es : List (Edit R)} {j : Nat} (past : es.length ≤ j) :
    b.moment es j = b.after es := by
  rw [moment, List.take_of_length_le past]

/-- The box is proper at every moment exactly if it was at first and no improper interval is given
to it. -/
theorem proper_moments_iff {b : Box Float} {es : List (Edit Float)} :
    (∀ j, (b.moment es j).Proper) ↔
      b.Proper ∧ ∀ index j given, b.Gives es index j given → given.Proper := by
  constructor
  · intro proper
    refine ⟨proper 0, fun index j given gives => ?_⟩
    obtain ⟨now, done⟩ := gives
    have has := interval_of_given done
    rw [← moment_succ b now] at has
    exact proper (j + 1) given (List.mem_of_getElem? has)
  · rintro ⟨first, given⟩ j
    induction j with
    | zero => exact first
    | succ j ih =>
        cases now : es[j]? with
        | none =>
            have past := List.getElem?_eq_none_iff.1 now
            rw [moment_of_le b past] at ih
            rw [moment_of_le b (Nat.le_succ_of_le past)]
            exact ih
        | some e =>
            rw [moment_succ b now]
            refine proper_edit ih fun index i set done => ?_
            subst set
            exact given index j i ⟨now, done⟩

/-- The finite points of a box while it is edited. -/
structure Occupied (b : Box Float) (es : List (Edit Float)) : Prop where
  contains : ∀ j z, z.length = (b.moment es j).size → Numbers z →
    (b.moment es j).contains ((b.moment es j).project z) = true
  keeps_iff : ∀ j, (b.moment es j).KeepsFinite ↔ (b.moment es j).Proper
  holds_iff : ∀ j, (b.moment es j).HoldsFinite ↔ (b.moment es j).Proper
  proper_iff : ∀ j, (b.moment es j).Proper ↔
    List.Forall₂ (fun lo hi => lo < infinity ∧ -infinity < hi) (b.moment es j).lowers
      (b.moment es j).uppers
  always_iff : (∀ j, (b.moment es j).KeepsFinite) ↔
    b.Proper ∧ ∀ index j given, b.Gives es index j given → given.Proper

/-- At every moment the box projects finite points to finite points of its own exactly if no
interval consists of one infinity; otherwise it has no finite point at all. -/
theorem occupied (b : Box Float) (es : List (Edit Float)) : Occupied b es where
  contains _ _ := contains_project
  keeps_iff _ := keepsFinite_iff
  holds_iff _ := holdsFinite_iff
  proper_iff _ := Box.proper_iff
  always_iff := by
    simp only [keepsFinite_iff]
    exact proper_moments_iff

/-- One infinity is accepted as an interval whichever way bounds enter.  Zero is projected to it, and
the box holds no finite point. -/
theorem infinite_not_keepsFinite :
    ∃ b : Box Float,
      ofBounds [infinity] [infinity] = .ok b ∧
      (unbounded 1).set 0 infinity infinity = .ok b ∧
      Box.kind.read "lowerbound = [inf]\nupperbound = [inf]\n" = .ok b ∧
      b.project [0.0] = [infinity] ∧ ¬ b.KeepsFinite ∧ ¬ b.HoldsFinite := by
  let b : Box Float := ⟨[⟨infinity, infinity, by decide⟩]⟩
  have improper : ¬ b.Proper := by
    intro proper
    exact absurd (proper _ List.mem_cons_self).1 (by decide)
  refine ⟨b, rfl, rfl, rfl, rfl, fun keeps => ?_, fun holds => ?_⟩
  · exact improper keeps.holdsFinite.proper
  · exact improper holds.proper

end Box

end AugmentedLagrangian

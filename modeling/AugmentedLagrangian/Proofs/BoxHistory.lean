/- # AugmentedLagrangian.Proofs.BoxHistory — what a box holds after any edits

A box is made from two vectors of bounds, as the whole space, or from a document; after that its
coordinates are replaced and dropped and new ones appended.  Each `Edit` is refused or done, and a
refused one changes nothing.

What is kept is said twice.  At every moment the two vectors of bounds are as long as the box, free
of values that are no number, and in order (`Box.Sound`).  And the interval of a coordinate is told
by the edits since the coordinate appeared: the last one that was given to it, or the one it
appeared with (`Box.Remembers`).
-/
import AugmentedLagrangian.Box.Document
import AugmentedLagrangian.Proofs.Double
import AugmentedLagrangian.Proofs.RecordText

namespace AugmentedLagrangian

set_option autoImplicit false

open Scalar (Ordered isNaN infinity)
open Toml (Item Key Kind)

variable {R : Type} [Scalar R]

/-! ## Results -/

theorem exists_of_bind {E α β : Type} {x : Except E α} {f : α → Except E β} {b : β}
    (done : x >>= f = .ok b) : ∃ a, x = .ok a ∧ f a = .ok b := by
  cases x with
  | error e => cases done
  | ok a => exact ⟨a, rfl, done⟩

theorem ok_of_mapError {E F α : Type} {x : Except E α} {f : E → F} {a : α}
    (done : x.mapError f = .ok a) : x = .ok a := by
  cases x with
  | error e => cases done
  | ok b =>
      cases done
      rfl

theorem ok_of_toOption {E α : Type} {x : Except E α} {a : α} (some : x.toOption = some a) :
    x = .ok a := by
  cases x with
  | error e => cases some
  | ok b =>
      cases some
      rfl

/-! ## Bounds that are an interval -/

namespace Interval

theorem make_eq_ok {index : Nat} {lo hi : R} {i : Interval R} (made : make index lo hi = .ok i) :
    i.lower = lo ∧ i.upper = hi := by
  unfold make at made
  split at made
  · cases made
  split at made
  · cases made
    exact ⟨rfl, rfl⟩
  · cases made

variable [Ordered R]

/-- An interval is made of its own bounds. -/
theorem make_self (index : Nat) (i : Interval R) : make index i.lower i.upper = .ok i := by
  obtain ⟨lower, upper⟩ := Ordered.numbers_of_le i.ordered
  simp [make, lower, upper, i.ordered]

/-- Bounds are refused if one is no number or the lower one is the greater. -/
theorem make_refuses_iff (index : Nat) (lo hi : R) :
    (∃ e, make index lo hi = .error e) ↔ isNaN lo = true ∨ isNaN hi = true ∨ hi < lo := by
  constructor
  · rintro ⟨e, refused⟩
    by_contra fine
    simp only [not_or, Bool.not_eq_true] at fine
    obtain ⟨lower, upper, crossed⟩ := fine
    have ordered : lo ≤ hi := Scalar.le_of_not_lt upper lower crossed
    simp [make, lower, upper, ordered] at refused
  · intro wrong
    have crossed : isNaN lo = true ∨ isNaN hi = true ∨ ¬ lo ≤ hi :=
      wrong.imp_right (·.imp_right Scalar.not_le_of_lt)
    unfold make
    split
    · exact ⟨_, rfl⟩
    · rename_i numbers
      rw [Bool.or_eq_true] at numbers
      rw [dif_neg (by tauto)]
      exact ⟨_, rfl⟩

end Interval

/-- Both parts of a structure are taken as they were given. -/
theorem Halves.record_entries {E α : Type} {kind : Kind E α} {first second : String}
    (distinct : first ≠ second) {a b : α} (returnsFirst : kind.Returns a)
    (returnsSecond : kind.Returns b) :
    Key.record (keys kind first second) {}
      (.table .headed (Key.entries (keys kind first second) ⟨some a, some b⟩)) =
        .ok ⟨some a, some b⟩ := by
  have names : ((keys kind first second).map Key.name).Nodup := by
    simp [keys, Kind.key, distinct]
  rw [Key.record, Key.ofEntries_entries names, keys, Key.restore_key rfl,
    returnsFirst.again_optional, pure_bind, Key.restore_key rfl, returnsSecond.again_optional,
    pure_bind]
  rfl

namespace Box

/-! ## The two vectors -/

/-- The bounds are two vectors of numbers, one pair in order per coordinate. -/
structure Sound (b : Box R) : Prop where
  lowers : b.lowers.length = b.size
  uppers : b.uppers.length = b.size
  numbers : ∀ x ∈ b.lowers ++ b.uppers, isNaN x = false
  ordered : List.Forall₂ (· ≤ ·) b.lowers b.uppers

theorem sound [Ordered R] (b : Box R) : b.Sound where
  lowers := b.length_lowers
  uppers := b.length_uppers
  numbers x mem := by
    rcases List.mem_append.1 mem with mem | mem
    all_goals
      obtain ⟨i, _, rfl⟩ := List.mem_map.1 mem
    · exact (Ordered.numbers_of_le i.ordered).1
    · exact (Ordered.numbers_of_le i.ordered).2
  ordered := by
    rw [lowers, uppers, List.forall₂_map_left_iff, List.forall₂_map_right_iff]
    exact List.forall₂_same.2 fun i _ => i.ordered

@[simp] theorem lowers_unbounded (k : Nat) :
    (unbounded k : Box R).lowers = List.replicate k (-infinity) :=
  List.map_replicate

@[simp] theorem uppers_unbounded (k : Nat) :
    (unbounded k : Box R).uppers = List.replicate k infinity :=
  List.map_replicate

theorem intervalsFrom_eq_ok {index : Nat} {lowers uppers : List R} {is : List (Interval R)}
    (made : intervalsFrom index lowers uppers = .ok is) (same : lowers.length = uppers.length) :
    is.map Interval.lower = lowers ∧ is.map Interval.upper = uppers := by
  induction lowers generalizing index uppers is with
  | nil =>
      obtain rfl : uppers = [] := List.length_eq_zero_iff.1 same.symm
      cases made
      exact ⟨rfl, rfl⟩
  | cons lo lowers ih =>
      cases uppers with
      | nil => cases same
      | cons hi uppers =>
          rw [intervalsFrom] at made
          obtain ⟨i, first, made⟩ := exists_of_bind made
          obtain ⟨is, rest, made⟩ := exists_of_bind made
          cases made
          obtain ⟨rfl, rfl⟩ := Interval.make_eq_ok first
          obtain ⟨rfl, rfl⟩ := ih rest (Nat.succ.inj same)
          exact ⟨rfl, rfl⟩

/-- The bounds that a box is made from are its bounds. -/
theorem ofBounds_eq_ok {lowers uppers : List R} {b : Box R}
    (made : ofBounds lowers uppers = .ok b) : b.lowers = lowers ∧ b.uppers = uppers := by
  unfold ofBounds at made
  split at made
  · rename_i same
    cases is : intervalsFrom 0 lowers uppers with
    | error e =>
        rw [is] at made
        cases made
    | ok is =>
        rw [is] at made
        cases made
        exact intervalsFrom_eq_ok is same
  · cases made

/-- Bounds make a box if they are in order, pair by pair. -/
theorem exists_ofBounds_iff [Ordered R] {lowers uppers : List R} :
    (∃ b, ofBounds lowers uppers = .ok b) ↔ List.Forall₂ (· ≤ ·) lowers uppers := by
  constructor
  · rintro ⟨b, made⟩
    obtain ⟨rfl, rfl⟩ := ofBounds_eq_ok made
    exact b.sound.ordered
  · intro ordered
    have intervals : ∀ index, ∃ is, intervalsFrom index lowers uppers = .ok is := by
      induction ordered with
      | nil => exact fun index => ⟨[], rfl⟩
      | @cons lo hi lowers uppers le _ ih =>
          intro index
          obtain ⟨is, rest⟩ := ih (index + 1)
          have first : Interval.make index lo hi = .ok ⟨lo, hi, le⟩ :=
            Interval.make_self index ⟨lo, hi, le⟩
          rw [intervalsFrom, first, rest]
          exact ⟨_, rfl⟩
    obtain ⟨is, made⟩ := intervals 0
    rw [ofBounds, if_pos ordered.length_eq, made]
    exact ⟨_, rfl⟩

theorem intervalsFrom_self [Ordered R] (index : Nat) (is : List (Interval R)) :
    intervalsFrom index (is.map Interval.lower) (is.map Interval.upper) = .ok is := by
  induction is generalizing index with
  | nil => rfl
  | cons i is ih =>
      rw [List.map_cons, List.map_cons, intervalsFrom, Interval.make_self, ih]
      rfl

/-- A box is made from its own bounds. -/
theorem ofBounds_self [Ordered R] (b : Box R) : ofBounds b.lowers b.uppers = .ok b := by
  rw [ofBounds, if_pos (b.length_lowers.trans b.length_uppers.symm), lowers, uppers,
    intervalsFrom_self]
  rfl

/-! ## Documents -/

/-- The document of two vectors. -/
def document (lowers uppers : List Float) : Item :=
  .table .headed (Key.entries Box.kind.boundKeys ⟨some lowers, some uppers⟩)

/-- Two vectors are read back from their document and then must make a box. -/
theorem take_document (lowers uppers : List Float) :
    Box.kind.take (document lowers uppers) = (ofBounds lowers uppers).mapError .refused := by
  have read : Key.record Box.kind.boundKeys {} (document lowers uppers) =
      .ok ⟨some lowers, some uppers⟩ :=
    Halves.record_entries (by decide) (Kind.returns_reals lowers) (Kind.returns_reals uppers)
  simp only [Box.kind, read]
  rfl

/-- A document is read as a box that its vectors make. -/
theorem exists_of_take {item : Item} {b : Box Float} (taken : Box.kind.take item = .ok b) :
    ∃ lowers uppers, ofBounds lowers uppers = .ok b := by
  unfold Box.kind at taken
  obtain ⟨halves, -, taken⟩ := exists_of_bind taken
  obtain ⟨⟨lowers, uppers⟩, -, taken⟩ := exists_of_bind taken
  exact ⟨lowers, uppers, ok_of_mapError taken⟩

/-! ## Edits -/

/-- What may be done to a box. -/
inductive Edit (R : Type) where
  /-- Replaces the bounds of one coordinate. -/
  | set (index : Nat) (lower upper : R)
  | resize (k : Nat)

/-- The box after the edit, and why it was refused if it was. -/
def edit (b : Box R) : Edit R → Box R × Option (BoxError R)
  | .set index lower upper =>
    match b.set index lower upper with
    | .ok b' => (b', none)
    | .error e => (b, some e)
  | .resize k => (b.resize k, none)

theorem edit_of_done {b b' : Box R} {index : Nat} {lo hi : R} (done : b.set index lo hi = .ok b') :
    b.edit (.set index lo hi) = (b', none) := by
  rw [edit, done]

theorem edit_of_error {b : Box R} {index : Nat} {lo hi : R} {e : BoxError R}
    (refused : b.set index lo hi = .error e) : b.edit (.set index lo hi) = (b, some e) := by
  rw [edit, refused]

/-- The box after some edits, the refused ones included. -/
def after (b : Box R) : List (Edit R) → Box R
  | [] => b
  | e :: es => (b.edit e).1.after es

theorem after_append (b : Box R) (es more : List (Edit R)) :
    b.after (es ++ more) = (b.after es).after more := by
  induction es generalizing b with
  | nil => rfl
  | cons e es ih => exact ih _

theorem set_eq_ok {b b' : Box R} {index : Nat} {lo hi : R} (done : b.set index lo hi = .ok b') :
    index < b.size ∧ ∃ i : Interval R, i.lower = lo ∧ i.upper = hi ∧
      b'.intervals = b.intervals.set index i := by
  unfold set at done
  split at done
  · rename_i present
    obtain ⟨i, made, done⟩ := exists_of_bind done
    cases done
    obtain ⟨lower, upper⟩ := Interval.make_eq_ok made
    exact ⟨present, i, lower, upper, rfl⟩
  · cases done

/-- A coordinate is replaced in both vectors. -/
theorem vectors_of_set {b b' : Box R} {index : Nat} {lo hi : R}
    (done : b.set index lo hi = .ok b') :
    b'.lowers = b.lowers.set index lo ∧ b'.uppers = b.uppers.set index hi := by
  obtain ⟨-, i, rfl, rfl, replaced⟩ := set_eq_ok done
  simp only [lowers, uppers, replaced, List.map_set, and_self]

/-- Both vectors are cut or filled with infinities. -/
theorem vectors_of_resize (b : Box R) (k : Nat) :
    (b.resize k).lowers = b.lowers.take k ++ List.replicate (k - b.size) (-infinity) ∧
      (b.resize k).uppers = b.uppers.take k ++ List.replicate (k - b.size) infinity := by
  simp only [lowers, uppers, resize, List.map_append, List.map_take, List.map_replicate]
  exact ⟨rfl, rfl⟩

/-- Replacing fails outside the box and where the bounds are no interval. -/
theorem set_fails_iff [Ordered R] (b : Box R) (index : Nat) (lo hi : R) :
    (∃ e, b.set index lo hi = .error e) ↔
      b.size ≤ index ∨ isNaN lo = true ∨ isNaN hi = true ∨ hi < lo := by
  unfold set
  by_cases present : index < b.size
  · rw [if_pos present, or_iff_right (Nat.not_le_of_lt present),
      ← Interval.make_refuses_iff index lo hi]
    cases Interval.make index lo hi with
    | error e => exact ⟨fun _ => ⟨e, rfl⟩, fun _ => ⟨e, rfl⟩⟩
    | ok i =>
        constructor
        · rintro ⟨e, done⟩
          cases done
        · rintro ⟨e, made⟩
          cases made
  · rw [if_neg present]
    exact ⟨fun _ => .inl (Nat.le_of_not_lt present), fun _ => ⟨_, rfl⟩⟩

theorem edit_of_refused {b : Box R} {e : Edit R} (refused : (b.edit e).2 ≠ none) :
    (b.edit e).1 = b := by
  cases e with
  | set index lo hi =>
      cases done : b.set index lo hi with
      | ok b' => exact absurd (congrArg Prod.snd (edit_of_done done)) refused
      | error e => exact congrArg Prod.fst (edit_of_error done)
  | resize k => exact absurd rfl refused

/-! ## Moments -/

/-- The box after the first `j` edits. -/
def moment (b : Box R) (es : List (Edit R)) (j : Nat) : Box R :=
  b.after (es.take j)

theorem moment_length (b : Box R) (es : List (Edit R)) : b.moment es es.length = b.after es := by
  rw [moment, List.take_length]

theorem moment_drop (b : Box R) (es : List (Edit R)) (j k : Nat) :
    (b.moment es j).moment (es.drop j) k = b.moment es (j + k) := by
  simp only [moment, ← after_append, List.take_add]

theorem moment_succ (b : Box R) {es : List (Edit R)} {j : Nat} {e : Edit R}
    (now : es[j]? = some e) : b.moment es (j + 1) = ((b.moment es j).edit e).1 := by
  rw [moment, List.take_add_one, now, after_append]
  rfl

/-- The next edit gives the interval to the coordinate. -/
def Gives (b : Box R) (es : List (Edit R)) (i j : Nat) (given : Interval R) : Prop :=
  es[j]? = some (.set i given.lower given.upper) ∧
    ((b.moment es j).edit (.set i given.lower given.upper)).2 = none

/-- The coordinate is there at every moment from `j` on, and was not just before. -/
structure Since (b : Box R) (es : List (Edit R)) (i j : Nat) : Prop where
  within : j ≤ es.length
  there : ∀ k, j ≤ k → k ≤ es.length → i < (b.moment es k).size
  appeared : j = 0 ∨ (b.moment es (j - 1)).size ≤ i

/-- The interval of each coordinate is the last one given to it since it appeared.  If none was, it
is the one it was made with, or the whole line if it was not made with the box. -/
structure Remembers (b : Box R) (es : List (Edit R)) : Prop where
  appeared : ∀ i, i < (b.after es).size → ∃ j, b.Since es i j
  last : ∀ i j, b.Since es i j → ∀ k given, j ≤ k → b.Gives es i k given →
    (∀ l other, k < l → ¬ b.Gives es i l other) → (b.after es).intervals[i]? = some given
  untouched : ∀ i j, b.Since es i j → (∀ k given, j ≤ k → ¬ b.Gives es i k given) →
    (b.after es).intervals[i]? = if j = 0 then b.intervals[i]? else some .line

/-! ## One edit -/

theorem intervals_resize_of_lt {b : Box R} {k i : Nat} (kept : i < k) (old : i < b.size) :
    (b.resize k).intervals[i]? = b.intervals[i]? := by
  have present : i < (b.intervals.take k).length := by
    rw [List.length_take]
    exact Nat.lt_min.2 ⟨kept, old⟩
  rw [resize, List.getElem?_append_left present, List.getElem?_take_of_lt kept]

/-- A coordinate that appears is free. -/
theorem line_of_appeared {b : Box R} {e : Edit R} {i : Nat} (new : b.size ≤ i)
    (present : i < (b.edit e).1.size) : (b.edit e).1.intervals[i]? = some .line := by
  cases e with
  | set index lo hi =>
      -- replacing a coordinate adds none
      exfalso
      cases done : b.set index lo hi with
      | ok b' =>
          obtain ⟨-, given, -, -, replaced⟩ := set_eq_ok done
          rw [edit_of_done done, size, replaced, List.length_set] at present
          exact absurd present (Nat.not_lt_of_le new)
      | error e =>
          rw [edit_of_error done] at present
          exact absurd present (Nat.not_lt_of_le new)
  | resize k =>
      have kept : i < k := by simpa [edit] using present
      have beyond : (b.intervals.take k).length ≤ i := by
        rw [List.length_take]
        exact Nat.le_trans (Nat.min_le_right ..) new
      show (b.resize k).intervals[i]? = _
      rw [resize, List.getElem?_append_right beyond, List.getElem?_replicate]
      refine if_pos ?_
      rw [List.length_take]
      unfold size at new ⊢
      omega

/-- What is given to a coordinate is what it then has. -/
theorem interval_of_given {b : Box R} {i : Nat} {given : Interval R}
    (done : (b.edit (.set i given.lower given.upper)).2 = none) :
    (b.edit (.set i given.lower given.upper)).1.intervals[i]? = some given := by
  cases set : b.set i given.lower given.upper with
  | error e =>
      rw [edit_of_error set] at done
      cases done
  | ok b' =>
      obtain ⟨present, made, lower, upper, replaced⟩ := set_eq_ok set
      obtain rfl : made = given := by
        cases made
        cases given
        cases lower
        cases upper
        rfl
      rw [edit_of_done set, replaced]
      exact List.getElem?_set_self present

/-- An edit that gives a coordinate nothing and keeps it leaves its interval. -/
theorem interval_of_kept {b : Box R} {e : Edit R} {i : Nat} (old : i < b.size)
    (kept : i < (b.edit e).1.size)
    (other : ∀ given : Interval R, e = .set i given.lower given.upper → (b.edit e).2 ≠ none) :
    (b.edit e).1.intervals[i]? = b.intervals[i]? := by
  cases e with
  | set index lo hi =>
      cases done : b.set index lo hi with
      | error e => rw [edit_of_error done]
      | ok b' =>
          obtain ⟨-, given, rfl, rfl, replaced⟩ := set_eq_ok done
          have elsewhere : index ≠ i := by
            rintro rfl
            exact other given rfl (congrArg Prod.snd (edit_of_done done))
          rw [edit_of_done done, replaced]
          exact List.getElem?_set_ne elsewhere
  | resize k => exact intervals_resize_of_lt (by simpa [edit] using kept) old

/-! ## Runs of edits -/

/-- A coordinate that stays and is given nothing keeps its interval. -/
theorem interval_of_untouched {b : Box R} {es : List (Edit R)} {i : Nat}
    (there : ∀ k, k ≤ es.length → i < (b.moment es k).size)
    (untouched : ∀ k given, ¬ b.Gives es i k given) :
    (b.after es).intervals[i]? = b.intervals[i]? := by
  induction es generalizing b with
  | nil => rfl
  | cons e es ih =>
      have later : ((b.edit e).1.after es).intervals[i]? = (b.edit e).1.intervals[i]? :=
        ih (fun k within => there (k + 1) (Nat.succ_le_succ within))
          fun k given gives => untouched (k + 1) given gives
      have now : (b.edit e).1.intervals[i]? = b.intervals[i]? :=
        interval_of_kept (there 0 (Nat.zero_le _)) (there 1 (Nat.succ_le_succ (Nat.zero_le _)))
          fun given eq done => untouched 0 given ⟨congrArg some eq, eq ▸ done⟩
      exact later.trans now

/-- From any moment on, a coordinate that stays and is given nothing keeps its interval. -/
theorem interval_since {b : Box R} {es : List (Edit R)} {i j : Nat}
    (there : ∀ k, j ≤ k → k ≤ es.length → i < (b.moment es k).size) (within : j ≤ es.length)
    (untouched : ∀ k given, j ≤ k → ¬ b.Gives es i k given) :
    (b.after es).intervals[i]? = (b.moment es j).intervals[i]? := by
  have whole : b.after es = (b.moment es j).after (es.drop j) := by
    rw [moment, ← after_append, List.take_append_drop]
  rw [whole]
  refine interval_of_untouched (fun k most => ?_) fun k given gives => ?_
  · rw [moment_drop]
    rw [List.length_drop] at most
    exact there (j + k) (Nat.le_add_right ..) (by omega)
  · refine untouched (j + k) given (Nat.le_add_right ..) ?_
    rwa [Gives, moment_drop, List.getElem?_drop] at gives

/-- A coordinate that is there has been since some moment. -/
theorem exists_since {b : Box R} {es : List (Edit R)} {i : Nat} (present : i < (b.after es).size) :
    ∃ j, b.Since es i j := by
  -- the first moment from which on the coordinate is always there
  have some : ∃ j, j ≤ es.length ∧ ∀ k, j ≤ k → k ≤ es.length → i < (b.moment es k).size := by
    refine ⟨es.length, Nat.le_refl _, fun k least most => ?_⟩
    rw [Nat.le_antisymm most least, moment_length]
    exact present
  classical
  obtain ⟨within, there⟩ := Nat.find_spec some
  refine ⟨Nat.find some, within, there, ?_⟩
  by_contra still
  rw [not_or, Nat.not_le] at still
  obtain ⟨started, before⟩ := still
  refine Nat.find_min some (Nat.sub_one_lt started) ⟨by omega, fun k least most => ?_⟩
  by_cases sooner : k = Nat.find some - 1
  · exact sooner ▸ before
  · exact there k (by omega) most

theorem remembers (b : Box R) (es : List (Edit R)) : b.Remembers es where
  appeared _ present := exists_since present
  last i j since k given later gives latest := by
    obtain ⟨now, done⟩ := gives
    have before : k < es.length := (List.getElem?_eq_some_iff.1 now).1
    have kept : (b.after es).intervals[i]? = (b.moment es (k + 1)).intervals[i]? :=
      interval_since (fun l least most => since.there l (by omega) most) before
        fun l other least => latest l other least
    rw [kept, moment_succ b now]
    exact interval_of_given done
  untouched i j since untouched := by
    rw [interval_since since.there since.within untouched]
    cases j with
    | zero => rfl
    | succ j =>
        rw [if_neg (Nat.succ_ne_zero j)]
        have new : (b.moment es j).size ≤ i := since.appeared.resolve_left (Nat.succ_ne_zero j)
        obtain ⟨e, now⟩ : ∃ e, es[j]? = some e := ⟨_, List.getElem?_eq_getElem since.within⟩
        have present := since.there (j + 1) (Nat.le_refl _) since.within
        rw [moment_succ b now] at present ⊢
        exact line_of_appeared new present

/-! ## The box as a store -/

/-- Where a box comes from. -/
inductive Source where
  | bounds (lowers uppers : List Float)
  | unbounded (k : Nat)
  | document (item : Item)

namespace Source

/-- The box that the source gives, if it gives one. -/
def box? : Source → Option (Box Float)
  | bounds lowers uppers => (ofBounds lowers uppers).toOption
  | unbounded k => some (.unbounded k)
  | document item => (Box.kind.take item).toOption

/-- The vectors of a box are those of its source; a document holds two that make a box. -/
def Gave (b : Box Float) : Source → Prop
  | bounds lowers uppers => b.lowers = lowers ∧ b.uppers = uppers
  | unbounded k => b.lowers = List.replicate k (-infinity) ∧ b.uppers = List.replicate k infinity
  | document _ => ofBounds b.lowers b.uppers = .ok b

end Source

theorem gave_of_box? {source : Source} {b : Box Float} (made : source.box? = some b) :
    source.Gave b := by
  cases source with
  | bounds lowers uppers => exact ofBounds_eq_ok (ok_of_toOption made)
  | unbounded k =>
      cases made
      exact ⟨lowers_unbounded k, uppers_unbounded k⟩
  | document item =>
      obtain ⟨lowers, uppers, bounds⟩ := exists_of_take (ok_of_toOption made)
      obtain ⟨rfl, rfl⟩ := ofBounds_eq_ok bounds
      exact bounds

/-- The box from this source is a faithful store for these edits. -/
structure Faithful (source : Source) (b : Box Float) (es : List (Edit Float)) : Prop where
  gave : source.Gave b
  /-- Two vectors make a box if they are in order, and their document is read as this box. -/
  accepted : ∀ lowers uppers : List Float,
    (∃ b, ofBounds lowers uppers = .ok b) ↔ List.Forall₂ (· ≤ ·) lowers uppers
  read : ∀ lowers uppers : List Float,
    Box.kind.take (document lowers uppers) = (ofBounds lowers uppers).mapError .refused
  sound : ∀ j, (b.moment es j).Sound
  set_fails : ∀ j index (lo hi : Float), (∃ e, (b.moment es j).set index lo hi = .error e) ↔
    (b.moment es j).size ≤ index ∨ isNaN lo = true ∨ isNaN hi = true ∨ hi < lo
  refused : ∀ j e, ((b.moment es j).edit e).2 ≠ none →
    ((b.moment es j).edit e).1 = b.moment es j
  set_vectors : ∀ j index lo hi b', (b.moment es j).set index lo hi = .ok b' →
    b'.lowers = (b.moment es j).lowers.set index lo ∧
      b'.uppers = (b.moment es j).uppers.set index hi
  resize_vectors : ∀ j k,
    ((b.moment es j).resize k).lowers =
        (b.moment es j).lowers.take k ++ List.replicate (k - (b.moment es j).size) (-infinity) ∧
      ((b.moment es j).resize k).uppers =
        (b.moment es j).uppers.take k ++ List.replicate (k - (b.moment es j).size) infinity
  remembers : ∀ j, b.Remembers (es.take j)

/-- Whatever a box comes from and whatever is done to it, it keeps its invariant and what it was
told. -/
theorem box_faithful (source : Source) (b : Box Float) (made : source.box? = some b)
    (es : List (Edit Float)) : Faithful source b es where
  gave := gave_of_box? made
  accepted _ _ := exists_ofBounds_iff
  read := take_document
  sound j := (b.moment es j).sound
  set_fails j := (b.moment es j).set_fails_iff
  refused _ _ := edit_of_refused
  set_vectors _ _ _ _ _ := vectors_of_set
  resize_vectors j := (b.moment es j).vectors_of_resize
  remembers j := b.remembers (es.take j)

/-- The second of two coordinates is dropped and comes back with a third, and is then replaced.
What is out of range, crossed or no number is refused. -/
def regrown : List (Edit Float) :=
  [.resize 1, .resize 3, .set 1 5.0 6.0, .set 3 0.0 1.0, .set 0 2.0 1.0, .set 2 Scalar.nan 1.0]

theorem box_faithful_regrown :
    ∃ b, Faithful (.bounds [-1.0, 0.0] [1.0, 2.0]) b regrown ∧
      (b.after regrown).lowers = [-1.0, 5.0, -infinity] ∧
      (b.after regrown).uppers = [1.0, 6.0, infinity] := by
  refine ⟨⟨[⟨-1.0, 1.0, by decide⟩, ⟨0.0, 2.0, by decide⟩]⟩, ?_, ?_⟩
  · exact box_faithful _ _ rfl regrown
  · constructor <;> rfl

end Box

end AugmentedLagrangian

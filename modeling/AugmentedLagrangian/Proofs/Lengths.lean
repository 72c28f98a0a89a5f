/- # AugmentedLagrangian.Proofs.Lengths — vectors with an entry for each constraint

Buffers are handed on from iteration to iteration, and whoever writes to one leaves as many entries
as there were.  Of a problem this is asked (`Problem.Tidy`); of the loop it is proved.  So in every
state that a solve reaches, the multipliers, the constraint values, the weights and the violation
have an entry for each constraint (`Task.Reaches.filled`).

Then no update of the weights lacks an entry that it reads or writes: an iteration that does not end
the solve always goes on (`Task.Evaluated.advances`).
-/
import AugmentedLagrangian.Proofs.Kernel
import AugmentedLagrangian.Proofs.WeightGrowth

namespace AugmentedLagrangian

set_option autoImplicit false

open Scalar (Ordered)

variable {R : Type} [Scalar R]

/-! ## One pass -/

omit [Scalar R] in
theorem length_of_overwriteAll {values buffer kept : List R}
    (done : overwriteAll values buffer = .done kept ()) : kept.length = buffer.length := by
  unfold overwriteAll at done
  split at done
  · rename_i same
    cases done
    exact same
  · cases done

/-- The residual in terms of whole vectors. -/
theorem Multipliers.residual_eq (is : List (Interval R)) (gs ys σs : List R) :
    residual is gs ys σs =
      List.zipWith (· - ·) gs (List.zipWith Interval.project is
        (List.zipWith (· + ·) gs (List.zipWith (· / ·) ys σs))) := by
  fun_induction residual is gs ys σs with
  | case1 i is g gs y ys σ σs ih => simp [ih]
  | case2 is gs ys σs none =>
      cases is with
      | nil => simp
      | cons i is =>
          cases gs with
          | nil => simp
          | cons g gs =>
              cases ys with
              | nil => simp
              | cons y ys =>
                  cases σs with
                  | nil => simp
                  | cons σ σs => exact absurd rfl (none i is g gs y ys σ σs rfl rfl rfl)

theorem Multipliers.length_residual {is : List (Interval R)} {gs ys σs : List R} {m : Nat}
    (hi : is.length = m) (hg : gs.length = m) (hy : ys.length = m) (hσ : σs.length = m) :
    (residual is gs ys σs).length = m := by
  rw [residual_eq]
  simp [hi, hg, hy, hσ]

namespace Weights

variable {s : OuterSettings R} {first : Bool} {e old weights : List R} {factor normE oldNormE : R}

theorem length_growEach? {buffer kept : List R}
    (grew : growEach? s factor first normE e old weights buffer = some kept) :
    kept.length = buffer.length := by
  fun_induction growEach? s factor first normE e old weights buffer generalizing kept with
  | case1 =>
      cases grew
      rfl
  | case2 e es old weight weights slot buffer ih =>
      obtain ⟨grows, _, rest⟩ := Option.bind_eq_some_iff.1 grew
      obtain ⟨others, those, shown⟩ := Option.bind_eq_some_iff.1 rest
      cases shown
      rw [List.length_cons, List.length_cons, ih those]
  | case3 => cases grew

/-- An update leaves as many weights as it finds. -/
theorem length_update {buffer kept : List R}
    (updated : update s factor first e old normE oldNormE weights buffer = .done kept ()) :
    kept.length = buffer.length := by
  unfold update at updated
  split at updated
  · exact length_of_overwriteAll updated
  split at updated
  · split at updated
    · split at updated
      · cases updated
      · cases updated
        exact length_fill _ _
    · exact length_of_overwriteAll updated
  · split at updated
    next grew =>
      cases updated
      exact length_growEach? grew
    next => cases updated

/-- Weights can grow one by one if each violation has its weight, and later also the violation
before. -/
theorem growEach?_total (enough : e.length ≤ weights.length)
    (history : first = true ∨ e.length ≤ old.length) :
    ∃ kept, growEach? s factor first normE e old weights weights = some kept := by
  induction e generalizing old weights with
  | nil => exact ⟨weights, rfl⟩
  | cons e es ih =>
      cases weights with
      | nil => exact absurd enough (Nat.not_succ_le_zero _)
      | cons weight weights =>
          have before : first = true ∨ es.length ≤ old.tail.length := by
            rw [List.length_tail]
            exact history.imp_right Nat.le_sub_one_of_lt
          obtain ⟨rest, grew⟩ := ih (Nat.le_of_succ_le_succ enough) before
          have known : ∃ grows, grows? s first e old.head? = some grows := by
            cases first with
            | true => exact ⟨true, rfl⟩
            | false =>
                cases old with
                | nil => exact absurd (history.resolve_left Bool.false_ne_true) (Nat.not_succ_le_zero _)
                | cons => exact ⟨_, rfl⟩
          obtain ⟨grows, known⟩ := known
          refine ⟨(if grows then grown s factor normE e weight else weight) :: rest, ?_⟩
          simp [growEach?, known, grew]

/-- An update succeeds if the violations, the weights and later the violations before are equally
many, and keeps their number.  Without weights there is no single one to grow, so then the violation
has to be small. -/
theorem update_total (enough : e.length = weights.length)
    (history : first = true ∨ e.length ≤ old.length) (some : weights ≠ [] ∨ normE ≤ s.delta) :
    ∃ kept, update s factor first e old normE oldNormE weights weights = .done kept () ∧
      kept.length = weights.length := by
  have succeeds : ∃ kept, update s factor first e old normE oldNormE weights weights =
      .done kept () := by
    have stays : ∃ kept, overwriteAll weights weights = .done kept () := ⟨weights, if_pos rfl⟩
    unfold update
    split
    · exact stays
    rename_i large
    split
    · split
      · cases weights with
        | nil => exact absurd rfl (some.resolve_right large)
        | cons weight weights => exact ⟨_, rfl⟩
      · exact stays
    · have total : ∃ kept, growEach? s factor first normE e old weights weights = .some kept :=
        growEach?_total (Nat.le_of_eq enough) history
      obtain ⟨kept, grew⟩ := total
      rw [grew]
      exact ⟨kept, rfl⟩
  obtain ⟨kept, updated⟩ := succeeds
  exact ⟨kept, updated, length_update updated⟩

/-- Choosing a first weight writes all entries or none. -/
theorem length_choose (p : Problem R) (m : Nat) (x weights : List R) :
    ((choose s m x weights).against p).kept.length = weights.length := by
  simp only [choose, Consult.bind_eq, Consult.against_bind, Consult.against_call, Problem.answer]
  rcases cost : p.cost x with e | f
  · rfl
  rcases constr : p.constr x (List.replicate m 0.0) with ⟨g, e | ⟨⟩⟩
  all_goals simp only [Consult.against_bind, Consult.against_call, Problem.answer, constr]
  · rfl
  · exact length_fill _ _

end Weights

/-- There is a first weight for each constraint. -/
theorem Loop.length_firstWeights (settings : OuterSettings R) (p : Problem R) (x : List R) :
    ((firstWeights settings p.constraints x).against p).kept.length = p.m := by
  rw [firstWeights]
  by_cases none : p.constraints.m = 0
  · rw [if_pos none]
    exact List.length_replicate
  rw [if_neg none]
  cases settings.initialPenalty with
  | some σ => exact (length_fill _ _).trans List.length_replicate
  | none => exact (Weights.length_choose p _ x _).trans List.length_replicate

/-! ## The states of a solve -/

/-- Evaluations of the constraints that succeed leave a vector with an entry for each constraint
where they found one. -/
structure Problem.Tidy (p : Problem R) : Prop where
  constr : ∀ {x buffer values}, buffer.length = p.m →
    p.constr x buffer = .done values () → values.length = p.m
  shifted : ∀ {values y weights kept distance}, values.length = p.m → y.length = p.m →
    weights.length = p.m → p.shifted values y weights = .done kept distance → kept.length = p.m

/-- The kernel of the library leaves as many entries as it found. -/
theorem Multipliers.length_of_shifted {box : Box R} {values y weights kept : List R} {distance : R}
    (done : shifted box values y weights = .done kept distance) : kept.length = values.length := by
  unfold shifted at done
  split at done
  · cases done
  split at done
  · cases done
    exact length_sharedPass _ _ _ _ _ _
  · split at done
    · cases done
      exact length_eachPass _ _ _ _ _
    · cases done

/-- A problem with the kernel of the library is tidy if its constraint values are. -/
theorem Problem.tidy_of_kernel {p : Problem R}
    (kernel : p.shifted = Multipliers.shifted p.constraints.values)
    (constr : ∀ {x buffer values}, buffer.length = p.m →
      p.constr x buffer = .done values () → values.length = p.m) : p.Tidy where
  constr := constr
  shifted length _ _ done := by
    rw [kernel] at done
    rw [Multipliers.length_of_shifted done, length]

namespace Task

variable {S O : Type} {t : Task R S O}

/-- The vectors of a state have an entry for each constraint. -/
structure Filled (t : Task R S O) (s : LoopState R) : Prop where
  y : s.y.length = t.problem.m
  values : s.values.length = t.problem.m
  weights : s.weights.length = t.problem.m
  violation : s.violation.length = t.problem.m

theorem Filled.moved {s : LoopState R} (filled : t.Filled s) (x : List R)
    (report : InnerReport R) : t.Filled (s.moved x report) :=
  ⟨filled.y, filled.values, filled.weights, filled.violation⟩

/-- Replacing the multipliers leaves the vectors filled, and so is the new violation. -/
theorem Updates.filled (tidy : t.problem.Tidy) {s s' : LoopState R} {violation : List R}
    (updates : t.Updates s s' violation) (filled : t.Filled s) :
    t.Filled s' ∧ violation.length = t.problem.m := by
  cases updates with
  | unconstrained none =>
      have size : 0 = t.problem.m := by rw [← filled.y, none, List.length_nil]
      exact ⟨⟨filled.y, filled.values, filled.weights, filled.violation⟩, size⟩
  | evaluated some constr kernel residual =>
      have values := tidy.constr filled.values constr
      refine ⟨⟨?_, values, filled.weights, filled.violation⟩, ?_⟩
      · rw [Multipliers.length_clip]
        exact tidy.shifted values filled.y filled.weights kernel
      · rw [residual]
        exact Multipliers.length_residual rfl values filled.y filled.weights

/-- Without constraints there is no violation. -/
theorem Updates.normE_of_empty {s s' : LoopState R} {violation : List R}
    (updates : t.Updates s s' violation) (none : s.y = []) : s'.normE = 0.0 := by
  cases updates with
  | unconstrained => rfl
  | evaluated some => exact absurd none some

/-- An iteration that does not end the solve goes on, with filled vectors. -/
theorem Evaluated.advances [Ordered R] (tidy : t.problem.Tidy) (good : t.settings.Admissible)
    {a : Snapshot R S O} (v : t.Evaluated a) (filled : t.Filled a.state) (first : Bool) :
    ∃ state, Loop.advance t.settings first v.state v.violation = .ok state ∧ t.Filled state := by
  obtain ⟨after, length⟩ := v.updates.filled tidy (filled.moved v.x v.report)
  have some : v.state.weights ≠ [] ∨ v.state.normE ≤ t.settings.delta := by
    by_cases none : (a.state.moved v.x v.report).y = []
    · rw [v.updates.normE_of_empty none]
      exact .inr (Scalar.le_of_lt good.delta)
    · refine .inl fun empty => none (List.eq_nil_of_length_eq_zero ?_)
      rw [(filled.moved v.x v.report).y, ← after.weights, empty, List.length_nil]
  have total : ∃ weights, Weights.update t.settings t.settings.penaltyUpdateFactor first v.violation
      v.state.violation v.state.normE v.state.oldNormE v.state.weights v.state.weights =
        .done weights () ∧ weights.length = v.state.weights.length :=
    Weights.update_total (length.trans after.weights.symm)
      (.inr (Nat.le_of_eq (length.trans after.violation.symm))) some
  obtain ⟨weights, updated, size⟩ := total
  refine ⟨_, by rw [Loop.advance, updated]; rfl, ?_⟩
  exact ⟨after.y, after.values, size.trans after.weights, length⟩

theorem Continues.filled [Ordered R] (tidy : t.problem.Tidy) (good : t.settings.Admissible)
    {k : Nat} {a b : Snapshot R S O} (continues : t.Continues k a b) (filled : t.Filled a.state) :
    t.Filled b.state := by
  cases continues with
  | next v converges stops timesOut advanced =>
      obtain ⟨state, advanced', after⟩ := v.advances tidy good filled (k == 0)
      rw [advanced] at advanced'
      cases advanced'
      exact after

theorem Reaches.filled [Ordered R] (tidy : t.problem.Tidy) (good : t.settings.Admissible)
    {first a : Snapshot R S O} {k : Nat} (reached : t.Reaches first k a)
    (filled : t.Filled first.state) : t.Filled a.state := by
  induction reached with
  | start => exact filled
  | step _ continues ih => exact continues.filled tidy good ih

/-- A solve starts with filled vectors. -/
theorem filled_first [Ordered R] (good : t.settings.Admissible) {x y weights : List R}
    (length : y.length = t.problem.m) (chosen : t.firstWeights x = .done weights ()) (solver : S)
    (watcher : O) : t.Filled (t.first x y weights solver watcher).state :=
  ⟨length, List.length_replicate, (first_weighted good chosen).length, List.length_replicate⟩

end Task

end AugmentedLagrangian

/- # AugmentedLagrangian.Proofs.LoneConstraint — with one constraint the two modes are one

With a single weight for all constraints, growth is told by the norms of two violations and scales by
the factor.  With a weight for each, it is told by their entries and scales by the entry's share of
the norm, but by no less than one.  Also the histories start differently: the norm before the first
iteration is infinite, and the violation before it is zero.

With one constraint the norm is the magnitude of the only entry, whose share is the whole factor, and
in the first iteration neither history is read.  So an update comes to the same in both modes
(`Weights.entry_lone`).  The rest of an iteration does not know of the mode, so a solve goes through
the same snapshots, as long as the norm before is that of the violation before.  The violations have
to be finite: the share of `∞` in `∞` is no number, and such a weight is kept.
-/
import AugmentedLagrangian.Proofs.Truncation
import AugmentedLagrangian.Proofs.WeightUpdate

namespace AugmentedLagrangian

set_option autoImplicit false
set_option linter.unusedSectionVars false

open Scalar (isFinite smaller magnitude normInf)

variable {K : Type} [Field K] [LinearOrder K] [IsStrictOrderedRing K]

/-! ## One update -/

/-- The norm of a single entry is its magnitude, whatever that is. -/
theorem Exact.normInf_single (v : Exact K) : normInf [v] = magnitude v := by
  show normStep 0.0 v = magnitude v
  rw [zero_eq]
  cases v with
  | fin x => rw [normStep_fin, max_eq_right (abs_nonneg x), magnitude_fin]
  | _ => rfl

namespace Weights

variable {s : OuterSettings (Exact K)}

/-- The weight of an only constraint after an update.  Nothing here tells the mode. -/
def lone (s : OuterSettings (Exact K)) (first : Bool) (v old weight : Exact K) : Exact K :=
  if ¬ magnitude v ≤ s.delta ∧
      (first = true ∨ s.relPenaltyIncreaseThreshold * magnitude old < magnitude v) then
    smaller s.maxPenalty (s.penaltyUpdateFactor * weight)
  else weight

section Lone

variable (good : s.Admissible) {first : Bool} {v old oldNormE : Exact K}
  (finite : isFinite (magnitude v) = true) (history : first = false → oldNormE = magnitude old)

include good finite history

theorem entry_lone (weight : Exact K) :
    entry s s.penaltyUpdateFactor first (magnitude v) oldNormE v old weight =
      lone s first v old weight := by
  have told : rises s first (magnitude v) oldNormE v old = true ↔
      ¬ magnitude v ≤ s.delta ∧
        (first = true ∨ s.relPenaltyIncreaseThreshold * magnitude old < magnitude v) := by
    cases first with
    | true => simp [rises, growsFrom]
    | false => simp [rises, growsFrom, history rfl]
  have scaled : ¬ magnitude v ≤ s.delta →
      scale s s.penaltyUpdateFactor (magnitude v) v = s.penaltyUpdateFactor := by
    intro large
    unfold scale
    split
    · rfl
    · obtain ⟨n, same⟩ := Exact.isFinite_iff.1 finite
      rw [same] at large ⊢
      exact share_of_largest good.penaltyUpdateFactor (pos_of_large good large)
  unfold entry lone
  by_cases rising : rises s first (magnitude v) oldNormE v old = true
  · rw [if_pos rising, if_pos (told.1 rising), scaled (told.1 rising).1]
  · rw [if_neg rising, if_neg (mt told.2 rising)]

/-- The update of an only constraint, in whichever mode. -/
theorem update_lone (weight : Exact K) :
    update s s.penaltyUpdateFactor first [v] [old] (magnitude v) oldNormE [weight] [weight] =
      .done [lone s first v old weight] () := by
  have shared : s.singlePenaltyFactor = true →
      1 ≠ 0 ∧ ∀ i j : Fin 1, (fun _ => weight : Fin 1 → Exact K) i = (fun _ => weight) j := by
    intro _
    exact ⟨Nat.one_ne_zero, fun _ _ => rfl⟩
  rw [← entry_lone good finite history weight]
  exact update_ofFn s s.penaltyUpdateFactor first (magnitude v) oldNormE (fun _ => v) (fun _ => old)
    (fun _ => weight) shared

end Lone

end Weights

namespace Task

variable {S O : Type}

/-! ## One iteration -/

section Mode

variable {R : Type} [Scalar R] (t : Task R S O)

/-- The task in the mode with a single weight for all, or in that with a weight for each. -/
def inMode (single : Bool) : Task R S O :=
  { t with settings := { t.settings with singlePenaltyFactor := single } }

variable {t} {a : Snapshot R S O} {k : Nat} {run : Run R S O} {single : Bool}

theorem opening_inMode (x y : List R) : (t.inMode single).opening x y = t.opening x y := rfl

/-- An iteration as far as its event does not depend on the mode. -/
def Evaluated.share (v : t.Evaluated a) (single : Bool) : (t.inMode single).Evaluated a :=
  ⟨v.solver, v.x, v.report, v.state, v.violation, v.answered, v.finite, v.updated⟩

/-- An iteration ends a solve in both modes, unless it lacks an entry. -/
theorem Ends.share (ends : t.Ends k a run)
    (total : ∀ v : t.Evaluated a, ∃ s, Loop.advance t.settings (k == 0) v.state v.violation = .ok s)
    (single : Bool) : (t.inMode single).Ends k a run := by
  cases ends with
  | refused answered => exact .refused (t := t.inMode single) answered
  | notFinite answered status => exact .notFinite (t := t.inMode single) answered status
  | unevaluated answered finite failed =>
      exact .unevaluated (t := t.inMode single) answered finite failed
  | converged v converges => exact .converged (v.share single) converges
  | stopped v converges stops => exact .stopped (v.share single) converges stops
  | timedOut v converges stops timesOut =>
      exact .timedOut (v.share single) converges stops timesOut
  | unweighted v _ _ _ failed =>
      obtain ⟨s, advanced⟩ := total v
      rw [failed] at advanced
      cases advanced

end Mode

variable {t : Task (Exact K) S O} {a b : Snapshot (Exact K) S O} {k : Nat}

/-- Past the first iteration, the norm before is that of the violation before. -/
def Compares (k : Nat) (a : Snapshot (Exact K) S O) : Prop :=
  k ≠ 0 → a.state.oldNormE = normInf a.state.violation

theorem Continues.compares (continues : t.Continues k a b) (some : 0 < t.problem.m)
    (filled : t.Filled a.state) : Compares (k + 1) b := by
  cases continues with
  | next v _ _ _ advanced =>
      obtain ⟨weights, -, rfl⟩ := Loop.advance_eq_ok advanced
      intro _
      exact v.normE_eq some filled

theorem admissible_inMode (good : t.settings.Admissible) (single : Bool) :
    (t.inMode single).settings.Admissible :=
  OuterSettings.check_requirements.1 (OuterSettings.check_requirements.2 good :)

/-- With one constraint, an iteration with a finite violation goes on alike in both modes. -/
theorem Evaluated.advance_inMode (v : t.Evaluated a) (tidy : t.problem.Tidy)
    (good : t.settings.Admissible) (one : t.problem.m = 1) (filled : t.Filled a.state)
    (compares : Compares k a) (finite : isFinite v.state.normE = true) (single : Bool) :
    Loop.advance (t.inMode single).settings (k == 0) v.state v.violation =
      Loop.advance t.settings (k == 0) v.state v.violation := by
  obtain ⟨after, length⟩ := v.updates.filled tidy (filled.moved v.x v.report)
  rw [one] at length
  obtain ⟨e, violation⟩ := List.length_eq_one_iff.1 length
  obtain ⟨old, before⟩ := List.length_eq_one_iff.1 (after.violation.trans one)
  obtain ⟨weight, weights⟩ := List.length_eq_one_iff.1 (after.weights.trans one)
  have norm : v.state.normE = magnitude e := by
    rw [v.normE_eq (by omega) filled, violation, Exact.normInf_single]
  rw [norm] at finite
  have history : (k == 0) = false → v.state.oldNormE = magnitude old := by
    intro later
    rw [v.state_oldNormE, compares (by simpa using later), ← v.state_violation, before,
      Exact.normInf_single]
  have updates : ∀ {s : OuterSettings (Exact K)}, s.Admissible →
      Weights.update s s.penaltyUpdateFactor (k == 0) v.violation v.state.violation v.state.normE
        v.state.oldNormE v.state.weights v.state.weights =
          .done [Weights.lone s (k == 0) e old weight] () := by
    intro s good
    rw [norm, violation, before, weights]
    exact Weights.update_lone good finite history weight
  rw [Loop.advance, Loop.advance, updates good, updates (admissible_inMode good single)]
  rfl

/-! ## The whole solve -/

/-- The iterations from a snapshot are the same in both modes, if its vectors are filled and all
violations that are shown are finite. -/
theorem iterate_inMode (tidy : t.problem.Tidy) (good : t.settings.Admissible)
    (one : t.problem.m = 1) (remaining k : Nat) {a : Snapshot (Exact K) S O}
    (filled : t.Filled a.state) (compares : Compares k a)
    (finite : ∀ e ∈ (t.iterate remaining k a).events, isFinite e.normE = true) (single : Bool) :
    (t.inMode single).iterate remaining k a = t.iterate remaining k a := by
  induction remaining generalizing k a with
  | zero => rfl
  | succ remaining ih =>
      rcases t.iterate_succ remaining k a with ends | ⟨b, continues, follows⟩
      · refine (ends.share (fun v => ?_) single).iterate_eq
        obtain ⟨s, advanced, -⟩ := v.advances tidy good filled (k == 0)
        exact ⟨s, advanced⟩
      · have later := ih (k + 1) (continues.filled tidy good filled)
          (continues.compares (by omega) filled)
        rw [← follows] at later
        cases continues with
        | next v converges stops timesOut advanced =>
            have same := v.advance_inMode tidy good one filled compares
              (finite _ (v.event_mem remaining k)) single
            have continues : (t.inMode single).Continues k a _ :=
              .next (v.share single) converges stops timesOut (same.trans advanced)
            exact continues.iterate_eq.trans (later finite)

/-- With one constraint and finite violations, a solve with a single weight for all constraints and
one with a weight for each do not differ in anything. -/
theorem run_inMode (t : Task (Exact K) S O) (tidy : t.problem.Tidy) (one : t.problem.m = 1)
    {single : Bool} {layers : List Layer} {x y : List (Exact K)} {solver : S} {watcher : O}
    (finite : ∀ e ∈ ((t.inMode single).run layers x y solver watcher).events,
      isFinite e.normE = true)
    (other : Bool) (layers' : List Layer) :
    (t.inMode other).run layers' x y solver watcher =
      (t.inMode single).run layers x y solver watcher := by
  rw [run_eq, opening_inMode] at finite ⊢
  rw [run_eq, opening_inMode]
  cases opened : t.opening x y with
  | error e => rfl
  | ok weights =>
      rw [opened] at finite
      obtain ⟨good, length, chosen⟩ := opening_eq_ok opened
      have good := admissible_inMode good single
      have filled : (t.inMode single).Filled
          ((t.inMode single).first x y weights solver watcher).state :=
        filled_first good length chosen solver watcher
      have compares : Compares 0 ((t.inMode single).first x y weights solver watcher) := by
        intro later
        exact absurd rfl later
      exact iterate_inMode (t := t.inMode single) tidy good one _ 0 filled compares finite other

/-- One constraint that is never met, and no first weight. -/
def solitary : Task (Exact ℚ) (ReplayState (Exact ℚ)) Unit where
  problem := .ofPrimitives ⟨.unbounded 1, ⟨[.between 0.0 0.0 Exact.zero_le_zero]⟩⟩
    { cost? := some fun _ => .ok 1.0, constr? := some fun x => overwriteAll x }
  settings := { OuterSettings.default with maxPenalty := 500.0, maxIter := 3 }
  inner := Replay.solver []
  watch := .silent
  clock := quickClock

theorem solitary_tidy : solitary.problem.Tidy :=
  Problem.tidy_of_kernel rfl fun length done => (length_of_overwriteAll done).trans length

/-- Its weight grows by the factor and then to the cap in both modes. -/
theorem solitary_run_inMode :
    let run := (solitary.inMode true).run [] [2.0] [0.0] {} ()
    (solitary.inMode false).run [] [2.0] [0.0] {} () = run ∧
      run.events.map Event.weights = [[10.0], [100.0], [500.0]] ∧
      run.outcome.toOption.map Solution.status = some .maxIter := by
  intro run
  have finite : ∀ e ∈ run.events, isFinite e.normE = true := by decide +kernel
  exact ⟨solitary.run_inMode solitary_tidy rfl finite false [], by decide +kernel,
    by decide +kernel⟩

end Task

end AugmentedLagrangian

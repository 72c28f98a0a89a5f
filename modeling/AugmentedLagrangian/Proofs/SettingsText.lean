/- # AugmentedLagrangian.Proofs.SettingsText — settings come back from their own documents

The tables of the settings are tidy, so their document is read as their entries (`read_eq_again`),
and all fields are taken as they were given but the two durations.  These are given as numbers of
seconds in double precision and taken as the nearest nanosecond.  Short ones come back, and others
need not (`reread_iff`): the longest duration is given as a number that no duration has
(`unlimited_not_reread`).
-/
import AugmentedLagrangian.Proofs.RecordText
import AugmentedLagrangian.Proofs.Seconds
import AugmentedLagrangian.Settings.Document

namespace AugmentedLagrangian

set_option autoImplicit false

open Toml (Key Kind Legible Tidy)

/-! ## The documents are tidy -/

@[simp] theorem StopCriterion.legible_word (v : StopCriterion) : Legible (.text v.word) := by
  cases v <;> exact .text (by decide) (by decide)

theorem OuterSettings.tidy (levels : Nat) (s : OuterSettings Float) :
    Tidy (levels + 1) (Key.entries (keys (E := Violation)) s) :=
  Key.tidy_entries keys [] (by decide) (by simp +decide [keys]) (by simp) s

theorem LipschitzSettings.tidy (levels : Nat) (s : LipschitzSettings Float) :
    Tidy (levels + 1) (Key.entries (keys (E := Violation)) s) :=
  Key.tidy_entries keys [] (by decide) (by simp +decide [keys]) (by simp) s

theorem CbfgsSettings.tidy (levels : Nat) (s : CbfgsSettings Float) :
    Tidy (levels + 1) (Key.entries (keys (E := Violation)) s) :=
  Key.tidy_entries keys [] (by decide) (by simp +decide [keys]) (by simp) s

theorem PanocSettings.tidy (levels : Nat) (s : PanocSettings Float) :
    Tidy (levels + 2) (Key.entries (keys (E := Violation)) s) := by
  have lipschitz : ∀ key ∈ (keys (E := Violation)).drop 16, key.Branch (levels + 1) := by
    simp only [keys, List.drop, List.forall_mem_singleton]
    refine Key.branch_group (by decide) (LipschitzSettings.tidy levels) ?_ _ _
    rintro s _ ⟨⟩
    exact .real s.l0
  exact Key.tidy_entries (keys.take 16) (keys.drop 16) (by decide) (by simp +decide [keys])
    lipschitz s

theorem LbfgsSettings.tidy (levels : Nat) (s : LbfgsSettings Float) :
    Tidy (levels + 2) (Key.entries (keys (E := Violation)) s) := by
  have cbfgs : ∀ key ∈ (keys (E := Violation)).drop 1, key.Branch (levels + 1) := by
    simp only [keys, List.drop, List.forall_mem_singleton]
    refine Key.branch_group (by decide) (CbfgsSettings.tidy levels) ?_ _ _
    rintro s _ ⟨⟩
    exact .real s.alpha
  exact Key.tidy_entries (keys.take 1) (keys.drop 1) (by decide) (by simp +decide [keys]) cbfgs s

theorem SolverSettings.tidy (s : SolverSettings Float) :
    Tidy 3 (Key.entries (keys (E := Violation)) s) := by
  have groups : ∀ key ∈ keys (E := Violation), key.Branch 2 := by
    simp only [keys, List.forall_mem_cons]
    refine ⟨Key.branch_group (by decide) (OuterSettings.tidy 1) ?_ _ _,
      Key.branch_group (by decide) (PanocSettings.tidy 0) ?_ _ _,
      Key.branch_group (by decide) (LbfgsSettings.tidy 0) ?_ _ _, by simp⟩
    · rintro s _ ⟨⟩
      exact .real s.epsilon
    · rintro s _ ⟨⟩
      exact .whole s.maxIter
    · rintro s _ ⟨⟩
      exact .whole s.memory
  exact Key.tidy_entries [] keys (by decide) (by simp) groups s

/-! ## Structures from their own entries -/

@[simp] theorem StopCriterion.again (old v : StopCriterion) :
    (Kind.choice all word : Kind Violation StopCriterion).again old v = pure v :=
  Kind.again_choice (by decide) (by cases v <;> decide) old

@[simp] theorem LipschitzSettings.again (base old s : LipschitzSettings Float) :
    (Kind.group (keys (E := Violation)) base).again old s = pure s := by
  rw [Kind.again_group (by decide)]
  simp [keys, Key.restore_key]

@[simp] theorem CbfgsSettings.again (base old s : CbfgsSettings Float) :
    (Kind.group (keys (E := Violation)) base).again old s = pure s := by
  rw [Kind.again_group (by decide)]
  simp [keys, Key.restore_key]

@[simp] theorem LbfgsSettings.again (base old s : LbfgsSettings Float) :
    (Kind.group (keys (E := Violation)) base).again old s = pure s := by
  rw [Kind.again_group (by decide)]
  simp [keys, Key.restore_key]

@[simp] theorem OuterSettings.again (old s : OuterSettings Float) :
    (Kind.group (keys (E := Violation)) .default).again old s = (do
      let time ← Kind.seconds.take (.real s.maxTime.toSeconds)
      return { s with maxTime := time }) := by
  rw [Kind.again_group (by decide)]
  simp [keys, Key.restore_key, OuterSettings.default]

@[simp] theorem PanocSettings.again (base old s : PanocSettings Float) :
    (Kind.group (keys (E := Violation)) base).again old s = (do
      let time ← Kind.seconds.take (.real s.maxTime.toSeconds)
      return { s with maxTime := time }) := by
  rw [Kind.again_group (by decide)]
  simp [keys, Key.restore_key]

/-- The settings with these durations. -/
def SolverSettings.withTimes (s : SolverSettings Float) (outerTime innerTime : Duration) :
    SolverSettings Float :=
  { s with
    outer := { s.outer with maxTime := outerTime }
    panoc := { s.panoc with maxTime := innerTime } }

theorem SolverSettings.withTimes_eq_iff {s : SolverSettings Float}
    {outerTime innerTime : Duration} :
    s.withTimes outerTime innerTime = s ↔
      outerTime = s.outer.maxTime ∧ innerTime = s.panoc.maxTime := by
  constructor
  · intro same
    exact ⟨congrArg (·.outer.maxTime) same, congrArg (·.panoc.maxTime) same⟩
  · rintro ⟨rfl, rfl⟩
    rfl

@[simp] theorem SolverSettings.again (old s : SolverSettings Float) :
    (kind (E := Violation)).again old s = (do
      let outerTime ← Kind.seconds.take (.real s.outer.maxTime.toSeconds)
      let innerTime ← Kind.seconds.take (.real s.panoc.maxTime.toSeconds)
      return s.withTimes outerTime innerTime) := by
  rw [kind, Kind.again_group (by decide)]
  simp [keys, Key.restore_key, withTimes]

/-! ## Settings from their own documents -/

namespace SolverSettings

variable {c : SolverSettings Float} {text : String}

/-- The document of settings is read as their entries. -/
theorem read_eq_again (written : c.toText? = some text) :
    (kind (E := Violation)).read text = kind.again c c := by
  have document : Toml.document? text = some (Key.entries (keys (E := Violation)) c) :=
    Toml.document?_write? c.tidy (by decide) written
  have given : (kind (E := Violation)).give c = some (.table .headed (Key.entries keys c)) := rfl
  rw [Kind.read, document, Kind.again_of_give given]

/-- All fields are read as they were but the durations, which come from their seconds. -/
theorem read_eq_match (written : c.toText? = some text) :
    (kind (E := Violation)).read text =
      match Duration.ofSeconds c.outer.maxTime.toSeconds,
        Duration.ofSeconds c.panoc.maxTime.toSeconds with
      | some outerTime, some innerTime => .ok (c.withTimes outerTime innerTime)
      | _, _ => .error .malformed := by
  rw [read_eq_again written, SolverSettings.again, Kind.take_seconds, Kind.take_seconds]
  cases Duration.ofSeconds c.outer.maxTime.toSeconds with
  | none => rfl
  | some outerTime => cases Duration.ofSeconds c.panoc.maxTime.toSeconds <;> rfl

/-- Settings are returned if they are read and accepted. -/
theorem ofText_eq_ok_iff {c : SolverSettings Float} :
    ofText text = .ok c ↔
      (kind (E := Violation)).read text = .ok c ∧ Requirement.check c.requirements = .ok () := by
  rw [ofText]
  cases (kind (E := Violation)).read text with
  | error e =>
      constructor
      · intro same
        cases same
      · rintro ⟨same, -⟩
        cases same
  | ok settings =>
      rw [show Except.ok settings = (pure settings : Except (ReadError Violation) _) from rfl,
        pure_bind]
      constructor
      · intro same
        split at same
        · rename_i accepted
          cases same
          exact ⟨rfl, accepted⟩
        · cases same
      · rintro ⟨same, accepted⟩
        cases same
        rw [accepted]
        rfl

/-- Accepted settings come back exactly if both durations do. -/
theorem ofText_eq_ok_iff_seconds (accepted : Requirement.check c.requirements = .ok ())
    (written : c.toText? = some text) :
    ofText text = .ok c ↔
      Duration.ofSeconds c.outer.maxTime.toSeconds = some c.outer.maxTime ∧
        Duration.ofSeconds c.panoc.maxTime.toSeconds = some c.panoc.maxTime := by
  have read := read_eq_match written
  generalize Duration.ofSeconds c.outer.maxTime.toSeconds = outer at read ⊢
  generalize Duration.ofSeconds c.panoc.maxTime.toSeconds = inner at read ⊢
  cases outer with
  | none => simp [ofText_eq_ok_iff, read]
  | some outerTime =>
      cases inner with
      | none => simp [ofText_eq_ok_iff, read]
      | some innerTime => simp [ofText_eq_ok_iff, accepted, read, withTimes_eq_iff]

/-- Whatever comes back differs in the durations only. -/
theorem eq_withTimes_of_ofText {c' : SolverSettings Float} (written : c.toText? = some text)
    (same : ofText text = .ok c') : c' = c.withTimes c'.outer.maxTime c'.panoc.maxTime := by
  have read := read_eq_match written
  rw [(ofText_eq_ok_iff.1 same).1] at read
  generalize Duration.ofSeconds c.outer.maxTime.toSeconds = outer at read
  generalize Duration.ofSeconds c.panoc.maxTime.toSeconds = inner at read
  cases outer with
  | none => cases read
  | some outerTime =>
      cases inner with
      | none => cases read
      | some innerTime =>
          cases read
          rfl

/-- Settings that are accepted come back from their own document exactly if their two durations come
back from their numbers of seconds, which durations below `2 ^ 23` seconds do.  Whatever comes back
differs from the settings in the durations only. -/
theorem reread_iff (accepted : Requirement.check c.requirements = .ok ())
    (written : c.toText? = some text) :
    (ofText text = .ok c ↔
      Duration.ofSeconds c.outer.maxTime.toSeconds = some c.outer.maxTime ∧
        Duration.ofSeconds c.panoc.maxTime.toSeconds = some c.panoc.maxTime) ∧
    (c.outer.maxTime.nanoseconds < 2 ^ 23 * nanosPerSecond →
      c.panoc.maxTime.nanoseconds < 2 ^ 23 * nanosPerSecond → ofText text = .ok c) ∧
    ∀ c', ofText text = .ok c' → c' = c.withTimes c'.outer.maxTime c'.panoc.maxTime := by
  have exact_iff := ofText_eq_ok_iff_seconds accepted written
  refine ⟨exact_iff, ?_, fun c' read => eq_withTimes_of_ofText written read⟩
  intro outer inner
  exact exact_iff.2 ⟨Duration.ofSeconds_toSeconds outer, Duration.ofSeconds_toSeconds inner⟩

theorem default_reread :
    ∃ text, Requirement.check (default (R := Float)).requirements = .ok () ∧
      (default (R := Float)).toText? = some text ∧ ofText text = .ok default := by
  have accepted : Requirement.check (default (R := Float)).requirements = .ok () := rfl
  have some : (default (R := Float)).toText?.isSome = true := by decide +kernel
  obtain ⟨text, written⟩ := Option.isSome_iff_exists.1 some
  have short : Duration.fiveMinutes.nanoseconds < 2 ^ 23 * nanosPerSecond := by decide
  exact ⟨text, accepted, written, (reread_iff accepted written).2.1 short short⟩

/-- The longest duration for the outer loop. -/
def unlimited : SolverSettings Float :=
  default.withTimes ⟨secondsLimit * nanosPerSecond - 1, by decide⟩ .fiveMinutes

/-- The number of seconds of the longest duration is rounded to one that no duration has, so nothing
is read of what was accepted and written. -/
theorem unlimited_not_reread :
    ∃ text, Requirement.check unlimited.requirements = .ok () ∧ unlimited.toText? = some text ∧
      ofText text = .error .malformed := by
  have accepted : Requirement.check unlimited.requirements = .ok () := rfl
  have some : unlimited.toText?.isSome = true := by decide +kernel
  obtain ⟨text, written⟩ := Option.isSome_iff_exists.1 some
  have outer : Duration.ofSeconds unlimited.outer.maxTime.toSeconds = none := by decide +kernel
  refine ⟨text, accepted, written, ?_⟩
  rw [ofText, read_eq_match written, outer]
  rfl

end SolverSettings

end AugmentedLagrangian

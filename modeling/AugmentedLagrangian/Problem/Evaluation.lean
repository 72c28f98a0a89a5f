/- # AugmentedLagrangian.Problem.Evaluation — what an evaluation leaves behind

An evaluation is handed buffers by its caller, overwrites some of their entries, and succeeds or
fails.  Which entries it has written by the time it fails is part of its behaviour.  So an
evaluation is a function from the buffers' old contents to a `Written`: their new contents together
with the result or the error.

`Written.andThen` runs one evaluation after another on the same buffers, and `Written.on` places the
buffers of one evaluation among those of a larger one.  An error ends the sequence with the buffers
as they stand.
-/
namespace AugmentedLagrangian

set_option autoImplicit false

/-- The evaluations that a problem supplies; all others can be composed of them. -/
inductive Primitive where
  | cost
  | costGrad
  | constr
  | constrGradProd
  | constrGrad
  | lagrHessProd
  | lagrHess
  deriving DecidableEq, Repr

/-- The vectors that a solve starts from. -/
inductive Start where
  | point
  | multipliers
  deriving DecidableEq, Repr

/-- What is wrong with an argument. -/
inductive Rejection where
  /-- The problem has a fixed number of parameters. -/
  | parameterCount (given expected : Nat)
  /-- The problem has no such constraint. -/
  | constraintIndex (index : Nat)
  /-- A solve starts from one entry per variable and one multiplier per constraint. -/
  | startLength (which : Start) (given expected : Nat)
  /-- A reason in words of whoever refuses. -/
  | stated (reason : String)
  deriving DecidableEq, Repr

/-- How an evaluation fails. -/
inductive EvalError where
  /-- The problem does not supply the primitive. -/
  | missing (p : Primitive)
  | rejected (reason : Rejection)
  /-- The problem holds what cannot be duplicated. -/
  | notDuplicable
  /-- The caller broke a rule that callers must keep, such as the length of a vector.  The call has
  no outcome, and nothing is promised about its buffers. -/
  | breach
  deriving DecidableEq, Repr

/-- What an evaluation leaves in its buffers, and how it ended. -/
structure Written (B α : Type) where
  kept : B
  outcome : Except EvalError α

namespace Written

variable {B C α β : Type}

/-- Success with these buffers. -/
def done (kept : B) (value : α) : Written B α :=
  ⟨kept, .ok value⟩

/-- Failure with these buffers. -/
def failed (kept : B) (e : EvalError) : Written B α :=
  ⟨kept, .error e⟩

/-- Whether the evaluation has an outcome: whether it was no breach. -/
def happened (w : Written B α) : Bool :=
  match w.outcome with
  | .error .breach => false
  | _ => true

/-- The same evaluation with its buffers placed among others. -/
def on (w : Written B α) (place : B → C) : Written C α :=
  ⟨place w.kept, w.outcome⟩

/-- The same evaluation with another value. -/
def map (w : Written B α) (f : α → β) : Written B β :=
  ⟨w.kept, w.outcome.map f⟩

/-- Goes on where the first evaluation succeeded, with the buffers it left. -/
def andThen (w : Written B α) (next : B → α → Written B β) : Written B β :=
  match w.outcome with
  | .ok a => next w.kept a
  | .error e => failed w.kept e

@[simp] theorem andThen_done (kept : B) (a : α) (next : B → α → Written B β) :
    (done kept a).andThen next = next kept a := rfl

@[simp] theorem andThen_failed (kept : B) (e : EvalError) (next : B → α → Written B β) :
    (failed kept e : Written B α).andThen next = failed kept e := rfl

@[simp] theorem on_done (kept : B) (a : α) (place : B → C) :
    (done kept a).on place = done (place kept) a := rfl

@[simp] theorem on_failed (kept : B) (e : EvalError) (place : B → C) :
    (failed kept e : Written B α).on place = failed (place kept) e := rfl

@[simp] theorem map_done (kept : B) (a : α) (f : α → β) :
    (done kept a).map f = done kept (f a) := rfl

@[simp] theorem map_failed (kept : B) (e : EvalError) (f : α → β) :
    (failed kept e : Written B α).map f = failed kept e := rfl

end Written

/-- Overwrites the first entries of a buffer.  A buffer with fewer entries is a breach. -/
def overwrite {R : Type} (values buffer : List R) : Written (List R) Unit :=
  if values.length ≤ buffer.length then .done (values ++ buffer.drop values.length) ()
  else .failed buffer .breach

/-- Overwrites a buffer whole.  A buffer of another length is a breach. -/
def overwriteAll {R : Type} (values buffer : List R) : Written (List R) Unit :=
  if values.length = buffer.length then .done values () else .failed buffer .breach

/-- Overwrites every entry of a buffer with one value. -/
def fill {R : Type} (value : R) (buffer : List R) : List R :=
  buffer.map fun _ => value

@[simp] theorem length_fill {R : Type} (value : R) (buffer : List R) :
    (fill value buffer).length = buffer.length := by
  simp [fill]

end AugmentedLagrangian

/- # AugmentedLagrangian.Observer — who watches a solve

An observer sees the events of a solve one after the other and may answer each with an action.  It
keeps a state from event to event, and from one solve to the next if it is handed on.
-/
namespace AugmentedLagrangian

set_option autoImplicit false

/-- Watches events of type `E` with a state of type `S`; its actions are of type `A`. -/
structure Observer (S E A : Type) where
  observe : S → E → S × Option A

namespace Observer

variable {S E A : Type}

/-- An observer that never acts. -/
def silent : Observer Unit E A :=
  ⟨fun _ _ => ((), none)⟩

/-- The answers to a list of events, and the state afterwards. -/
def drive (o : Observer S E A) : S → List E → S × List (Option A)
  | s, [] => (s, [])
  | s, e :: es =>
    let (s, a) := o.observe s e
    let (s, as) := o.drive s es
    (s, a :: as)

@[simp] theorem drive_nil (o : Observer S E A) (s : S) : o.drive s [] = (s, []) := rfl

/-- The events after a list of events meet the state that the list leaves. -/
theorem drive_append (o : Observer S E A) (s : S) (es fs : List E) :
    o.drive s (es ++ fs) =
      ((o.drive (o.drive s es).1 fs).1, (o.drive s es).2 ++ (o.drive (o.drive s es).1 fs).2) := by
  induction es generalizing s with
  | nil => rfl
  | cons e es ih => simp [drive, ih]

/-- Every event is answered. -/
@[simp] theorem length_drive (o : Observer S E A) (s : S) (es : List E) :
    (o.drive s es).2.length = es.length := by
  induction es generalizing s with
  | nil => rfl
  | cons e es ih => simp [drive, ih]

/-- An observer of numbers that counts them, and answers those of one residue class with ten times
the number plus the count. -/
def ofResidue (modulus residue : Nat) : Observer Nat Nat Nat :=
  ⟨fun seen i =>
    (seen + 1, if i % max modulus 1 = residue then some (i * 10 + (seen + 1)) else none)⟩

end Observer

end AugmentedLagrangian

/- # AugmentedLagrangian.Consult — computations that consult a problem

A solver sees a problem only through the answers to its calls.  `Consult R α` is such a computation:
it is done, or it makes a call and goes on with the reply.  The same computation can be performed
against any problem and under any layers around it, which is how "what a solver does depends on the
answers alone" becomes a matter of its type.
-/
import AugmentedLagrangian.Problem.Call

namespace AugmentedLagrangian

set_option autoImplicit false

/-- A computation that makes finitely many calls, each chosen by the replies so far. -/
inductive Consult (R α : Type) where
  | done (a : α)
  | ask (c : Call R) (next : c.Reply → Consult R α)

namespace Consult

variable {R α β : Type}

/-- One computation after another. -/
def bind : Consult R α → (α → Consult R β) → Consult R β
  | done a, f => f a
  | ask c next, f => ask c fun r => (next r).bind f

instance : Monad (Consult R) where
  pure := done
  bind := bind

@[simp] theorem bind_done (a : α) (f : α → Consult R β) : (done a).bind f = f a := rfl

@[simp] theorem bind_ask (c : Call R) (next : c.Reply → Consult R α) (f : α → Consult R β) :
    (ask c next).bind f = ask c fun r => (next r).bind f := rfl

theorem bind_done_right (c : Consult R α) : c.bind done = c := by
  induction c with
  | done a => rfl
  | ask c next ih =>
    rw [bind_ask]
    exact congrArg (ask c) (funext ih)

theorem bind_assoc {γ : Type} (c : Consult R α) (f : α → Consult R β) (g : β → Consult R γ) :
    (c.bind f).bind g = c.bind fun a => (f a).bind g := by
  induction c with
  | done a => rfl
  | ask c next ih =>
    rw [bind_ask, bind_ask, bind_ask]
    exact congrArg (ask c) (funext ih)

instance : LawfulMonad (Consult R) :=
  LawfulMonad.mk' _ (fun c => bind_done_right c) (fun _ _ => rfl) (fun c f g => bind_assoc c f g)

@[simp] theorem pure_eq (a : α) : (pure a : Consult R α) = done a := rfl

@[simp] theorem bind_eq (c : Consult R α) (f : α → Consult R β) : c >>= f = c.bind f := rfl

/-- The call by itself. -/
def call (c : Call R) : Consult R c.Reply :=
  ask c done

/-- The outcome against a problem. -/
def against [Scalar R] (p : Problem R) : Consult R α → α
  | done a => a
  | ask c next => (next (p.answer c)).against p

section Against

variable [Scalar R] (p : Problem R)

@[simp] theorem against_done (a : α) : (done a).against p = a := rfl

@[simp] theorem against_call (c : Call R) : (call c).against p = p.answer c := rfl

@[simp] theorem against_bind (c : Consult R α) (f : α → Consult R β) :
    (c.bind f).against p = (f (c.against p)).against p := by
  induction c with
  | done a => rfl
  | ask c next ih => exact ih (p.answer c)

end Against

end Consult

end AugmentedLagrangian

/- # AugmentedLagrangian.Count.Chart — one entry per operation

A `Chart` holds a value for each of the sixteen operations.  `get_set` and `ext_get` say that it is a
function on operations and nothing more.
-/
import AugmentedLagrangian.Problem.Call

namespace AugmentedLagrangian

set_option autoImplicit false

/-- Where the operation stands in reports. -/
def Operation.index : Operation → Fin 16
  | cost => 0
  | costGrad => 1
  | costWithGrad => 2
  | costWithConstr => 3
  | costWithGradConstr => 4
  | gradTerms => 5
  | constr => 6
  | constrGradProd => 7
  | constrGrad => 8
  | lagrGrad => 9
  | lagrHessProd => 10
  | lagrHess => 11
  | merit => 12
  | meritGrad => 13
  | meritGradFrom => 14
  | meritWithGrad => 15

namespace Operation

theorem index_injective {a b : Operation} (h : a.index = b.index) : a = b := by
  cases a <;> cases b <;> first | rfl | exact absurd h (by decide)

theorem exists_index (i : Fin 16) : ∃ op : Operation, op.index = i := by
  have h : ∀ i : Fin 16, ∃ op ∈ all, op.index = i := by decide
  obtain ⟨op, _, hop⟩ := h i
  exact ⟨op, hop⟩

end Operation

/-- A value for each operation. -/
structure Chart (α : Type) where
  slots : Vector α 16
  deriving DecidableEq

namespace Chart

variable {α : Type}

/-- The same value for every operation. -/
def const (a : α) : Chart α :=
  ⟨Vector.replicate 16 a⟩

def get (c : Chart α) (op : Operation) : α :=
  c.slots[op.index]

/-- The chart with the value of one operation replaced. -/
def set (c : Chart α) (op : Operation) (a : α) : Chart α :=
  ⟨c.slots.set op.index a⟩

/-- The chart with one value per operation. -/
def ofFn (f : Operation → α) : Chart α :=
  ⟨#v[f .cost, f .costGrad, f .costWithGrad, f .costWithConstr, f .costWithGradConstr, f .gradTerms,
    f .constr, f .constrGradProd, f .constrGrad, f .lagrGrad, f .lagrHessProd, f .lagrHess, f .merit,
    f .meritGrad, f .meritGradFrom, f .meritWithGrad]⟩

@[simp] theorem get_const (a : α) (op : Operation) : (const a).get op = a := by
  simp [const, get]

@[simp] theorem get_ofFn (f : Operation → α) (op : Operation) : (ofFn f).get op = f op := by
  cases op <;> rfl

theorem get_set (c : Chart α) (op other : Operation) (a : α) :
    (c.set op a).get other = if other = op then a else c.get other := by
  unfold get set
  by_cases h : other = op
  · simp [h]
  · have : op.index.val ≠ other.index.val := fun e =>
      h (Operation.index_injective (Fin.ext e.symm))
    simp [h, this]

@[simp] theorem get_set_self (c : Chart α) (op : Operation) (a : α) : (c.set op a).get op = a := by
  simp [get_set]

theorem ext_get {c d : Chart α} (h : ∀ op, c.get op = d.get op) : c = d := by
  cases c; cases d
  congr 1
  apply Vector.ext
  intro i hi
  obtain ⟨op, hop⟩ := Operation.exists_index ⟨i, hi⟩
  have := h op
  simp only [get, hop] at this
  exact this

end Chart

end AugmentedLagrangian

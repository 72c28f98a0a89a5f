/- # AugmentedLagrangian.Proofs.MissingPrimitives — what an evaluation that fails leaves behind

The composed evaluations call each other and hand on their buffers, in which constraint values
become multipliers and a gradient is added up.  Told apart from this nesting, each is a sequence of
steps on three buffers: primitives, the kernel and a sum.  `Combined.steps` is the table of these
sequences, and `Problem.Unassisted.perform_eq_follow` says that there is nothing else to the
evaluations, whatever the primitives do.

A sequence goes as far as its first step that fails.  If the primitives that a problem supplies
succeed, that is the first one that it lacks: the evaluation fails with its error, and the buffers
are as the steps before it have left them (`Problem.missing_primitives`).
-/
import AugmentedLagrangian.Proofs.Exact
import AugmentedLagrangian.Proofs.Kernel
import AugmentedLagrangian.Proofs.Lengths
import AugmentedLagrangian.Proofs.MeritAgreement

namespace AugmentedLagrangian

set_option autoImplicit false

/-! ## Evaluations as sequences of steps -/

/-- The same evaluation without its value. -/
def Written.void {B α : Type} (w : Written B α) : Written B Unit :=
  w.map fun _ => ()

@[simp] theorem Written.map_unit {B : Type} (w : Written B Unit) : (w.map fun _ => ()) = w := by
  rcases w with ⟨kept, e | ⟨⟩⟩ <;> rfl

/-- The vectors that an evaluation reads.  An evaluation from shifted multipliers reads them as its
multipliers. -/
structure Arguments (R : Type) where
  x : List R
  y : List R
  weights : List R

/-- The buffers of the composed evaluations. -/
inductive Slot where
  | grad
  | work
  /-- Holds constraint values, and then the shifted multipliers. -/
  | values
  deriving DecidableEq

/-- What the buffers hold. -/
structure Buffers (R : Type) where
  grad : List R
  work : List R
  values : List R
  deriving DecidableEq

def Buffers.get {R : Type} (b : Buffers R) : Slot → List R
  | .grad => b.grad
  | .work => b.work
  | .values => b.values

/-- The evaluations that are composed of primitives. -/
inductive Combined where
  | costWithGrad
  | costWithConstr
  | costWithGradConstr
  | gradTerms
  | lagrGrad
  | merit
  | meritGradFrom
  | meritGrad
  | meritWithGrad

/-- What a composed evaluation does next. -/
inductive Step where
  | cost
  | costGrad
  | constr
  /-- The product with the multipliers that the evaluation reads, or with the shifted ones. -/
  | constrGradProd (shifted : Bool)
  /-- Puts the shifted multipliers in place of the constraint values. -/
  | kernel
  /-- Adds the product onto the gradient. -/
  | sum

namespace Step

/-- The primitive that the step calls. -/
def primitive? : Step → Option Primitive
  | cost => some .cost
  | costGrad => some .costGrad
  | constr => some .constr
  | constrGradProd _ => some .constrGradProd
  | kernel | sum => none

/-- The buffer that the step writes to. -/
def slot? : Step → Option Slot
  | cost => none
  | costGrad | sum => some .grad
  | constrGradProd _ => some .work
  | constr | kernel => some .values

end Step

namespace Combined

/-- The steps of an evaluation for a problem with `m` constraints, in order. -/
def steps (m : Nat) : Combined → List Step
  | costWithGrad => [.costGrad, .cost]
  | costWithConstr => [.constr, .cost]
  | costWithGradConstr => [.constr, .costGrad, .cost]
  | gradTerms => [.costGrad, .constrGradProd false]
  | lagrGrad => [.costGrad, .constrGradProd false, .sum]
  | merit => if m = 0 then [.cost] else [.constr, .cost, .kernel]
  | meritGradFrom => if m = 0 then [.costGrad] else [.costGrad, .constrGradProd false, .sum]
  | meritGrad =>
    if m = 0 then [.costGrad] else [.constr, .kernel, .costGrad, .constrGradProd true, .sum]
  | meritWithGrad =>
    if m = 0 then [.costGrad, .cost]
    else [.constr, .cost, .kernel, .costGrad, .constrGradProd true, .sum]

/-- The primitives that an evaluation attempts, in order. -/
def order (m : Nat) (op : Combined) : List Primitive :=
  (op.steps m).filterMap Step.primitive?

end Combined

namespace Problem

variable {R : Type} [Scalar R] (p : Problem R) (a : Arguments R)

/-- Performs a composed evaluation on the buffers. -/
def perform (b : Buffers R) : Combined → Written (Buffers R) Unit
  | .costWithGrad => ((p.costWithGrad a.x b.grad).on fun grad => { b with grad }).void
  | .costWithConstr => ((p.costWithConstr a.x b.values).on fun values => { b with values }).void
  | .costWithGradConstr =>
    ((p.costWithGradConstr a.x b.grad b.values).on fun (grad, values) =>
      { b with grad, values }).void
  | .gradTerms => (p.gradTerms a.x a.y b.grad b.work).on fun (grad, work) => { b with grad, work }
  | .lagrGrad => (p.lagrGrad a.x a.y b.grad b.work).on fun (grad, work) => { b with grad, work }
  | .merit => ((p.merit a.x a.y a.weights b.values).on fun values => { b with values }).void
  | .meritGradFrom =>
    (p.meritGradFrom a.x a.y b.grad b.work).on fun (grad, work) => { b with grad, work }
  | .meritGrad =>
    (p.meritGrad a.x a.y a.weights b.grad b.work b.values).on fun (grad, work, values) =>
      ⟨grad, work, values⟩
  | .meritWithGrad =>
    ((p.meritWithGrad a.x a.y a.weights b.grad b.work b.values).on fun (grad, work, values) =>
      ⟨grad, work, values⟩).void

/-- Performs a step on the buffers. -/
def step (b : Buffers R) : Step → Written (Buffers R) Unit
  | .cost => Written.void ⟨b, p.cost a.x⟩
  | .costGrad => (p.costGrad a.x b.grad).on fun grad => { b with grad }
  | .constr => (p.constr a.x b.values).on fun values => { b with values }
  | .constrGradProd shifted =>
    (p.constrGradProd a.x (if shifted then b.values else a.y) b.work).on fun work => { b with work }
  | .kernel => ((p.shifted b.values a.y a.weights).on fun values => { b with values }).void
  | .sum => .done { b with grad := Composed.addOnto b.grad b.work } ()

/-- Performs steps one after the other, as far as the first that fails. -/
def follow : List Step → Buffers R → Written (Buffers R) Unit
  | [], b => .done b ()
  | s :: steps, b => (p.step a b s).andThen fun b _ => follow steps b

end Problem

/-! ## The steps of each evaluation -/

namespace Problem

variable {R : Type} [Scalar R]

/-- Every evaluation but the primitives and the kernel is the composed one. -/
structure Unassisted (p : Problem R) : Prop extends p.Composes where
  costWithGradConstr :
    p.costWithGradConstr = Composed.costWithGradConstr p.constr p.costWithGrad
  gradTerms : p.gradTerms = Composed.gradTerms p.costGrad p.constrGradProd
  lagrGrad : p.lagrGrad = Composed.lagrGrad p.gradTerms

theorem unassisted_assemble (c : Constraints R) (duplicable : Except EvalError Unit)
    (prims : Primitives R) : (assemble c duplicable prims {}).Unassisted :=
  ⟨composes_assemble c duplicable prims, rfl, rfl, rfl⟩

variable {p : Problem R} {a : Arguments R} {b : Buffers R}

theorem follow_append (steps rest : List Step) :
    p.follow a (steps ++ rest) b = (p.follow a steps b).andThen fun b _ => p.follow a rest b := by
  induction steps generalizing b with
  | nil => rfl
  | cons s steps ih =>
      rw [List.cons_append, follow, follow]
      rcases p.step a b s with ⟨kept, e | ⟨⟩⟩
      · rfl
      · exact ih

namespace Unassisted

variable (plain : p.Unassisted)

include plain

theorem costWithGrad_eq :
    ((p.costWithGrad a.x b.grad).on fun grad => { b with grad }).void =
      p.follow a [.costGrad, .cost] b := by
  simp only [follow, step, plain.costWithGrad, Composed.costWithGrad]
  rcases p.costGrad a.x b.grad with ⟨grad, e | ⟨⟩⟩
  · rfl
  rcases p.cost a.x with e | f <;> rfl

theorem costWithConstr_eq :
    ((p.costWithConstr a.x b.values).on fun values => { b with values }).void =
      p.follow a [.constr, .cost] b := by
  simp only [follow, step, plain.costWithConstr, Composed.costWithConstr]
  rcases p.constr a.x b.values with ⟨values, e | ⟨⟩⟩
  · rfl
  rcases p.cost a.x with e | f <;> rfl

/-- The merit function where there are constraints. -/
theorem costWithShifted_eq :
    ((Composed.costWithShifted p.costWithConstr p.shifted a.x a.y a.weights b.values).on
      fun values => { b with values }).void = p.follow a ([.constr, .cost] ++ [.kernel]) b := by
  rw [follow_append, ← plain.costWithConstr_eq, Composed.costWithShifted]
  rcases p.costWithConstr a.x b.values with ⟨values, e | f⟩
  · rfl
  show ((p.shifted values a.y a.weights).map _ |>.on _).void =
    (p.step a { b with values } .kernel).andThen _
  rw [step]
  rcases p.shifted values a.y a.weights with ⟨shifted, e | distance⟩ <;> rfl

theorem gradTerms_eq (shifted : Bool) :
    ((p.gradTerms a.x (if shifted then b.values else a.y) b.grad b.work).on
      fun (grad, work) => { b with grad, work }) =
        p.follow a [.costGrad, .constrGradProd shifted] b := by
  simp only [follow, step, plain.gradTerms, Composed.gradTerms]
  rcases p.costGrad a.x b.grad with ⟨grad, e | ⟨⟩⟩
  · rfl
  simp only [Written.on, Written.andThen]
  rcases p.constrGradProd a.x (if shifted then b.values else a.y) b.work with ⟨work, e | ⟨⟩⟩ <;> rfl

theorem lagrGrad_eq (shifted : Bool) :
    ((p.lagrGrad a.x (if shifted then b.values else a.y) b.grad b.work).on
      fun (grad, work) => { b with grad, work }) =
        p.follow a ([.costGrad, .constrGradProd shifted] ++ [.sum]) b := by
  rw [follow_append, ← plain.gradTerms_eq, plain.lagrGrad, Composed.lagrGrad]
  rcases p.gradTerms a.x (if shifted then b.values else a.y) b.grad b.work with
    ⟨⟨grad, work⟩, e | ⟨⟩⟩ <;> rfl

omit plain in
theorem shiftedValues_eq :
    ((p.shiftedValues a.x a.y a.weights b.values).on fun values => { b with values }).void =
      p.follow a [.constr, .kernel] b := by
  simp only [follow, step, shiftedValues]
  rcases p.constr a.x b.values with ⟨g, e | ⟨⟩⟩
  · rfl
  simp only [Written.on, Written.andThen]
  rcases p.shifted g a.y a.weights with ⟨ŷ, e | distance⟩ <;> rfl

/-- The gradient of the merit function, from the shifted multipliers that steps have left. -/
theorem meritGradFrom_after {α β : Type} (constrained : 0 < p.m) {w : Written (List R) α}
    {steps : List Step} (before : (w.on fun values => { b with values }).void = p.follow a steps b)
    (value : α → β) :
    (((w.on (b.grad, b.work, ·)).andThen fun (grad, work, ŷ) v =>
      ((p.meritGradFrom a.x ŷ grad work).map fun _ => value v).on fun (grad, work) =>
        (grad, work, ŷ)).on fun (grad, work, values) => (⟨grad, work, values⟩ : Buffers R)).void =
      p.follow a (steps ++ [.costGrad, .constrGradProd true, .sum]) b := by
  rw [follow_append, ← before, plain.meritGradFrom]
  simp only [Composed.meritGradFrom, if_neg (Nat.ne_of_gt constrained)]
  rcases w with ⟨ŷ, e | v⟩
  · rfl
  refine Eq.trans ?_ (plain.lagrGrad_eq (a := a) (b := { b with values := ŷ }) true)
  simp only [Written.on, Written.andThen, if_true]
  rcases p.lagrGrad a.x ŷ b.grad b.work with ⟨⟨grad, work⟩, e | ⟨⟩⟩ <;> rfl

end Unassisted

/-- A composed evaluation is its steps, whatever the primitives do. -/
theorem Unassisted.perform_eq_follow (plain : p.Unassisted) (op : Combined) :
    p.perform a b op = p.follow a (op.steps p.m) b := by
  cases op with
  | costWithGrad => exact plain.costWithGrad_eq
  | costWithConstr => exact plain.costWithConstr_eq
  | costWithGradConstr =>
      have rest (values : List R) := plain.costWithGrad_eq (a := a) (b := { b with values })
      simp only [perform, plain.costWithGradConstr, Composed.costWithGradConstr, Combined.steps]
      rw [follow, step]
      rcases p.constr a.x b.values with ⟨values, e | ⟨⟩⟩
      · rfl
      exact Eq.trans rfl (rest values)
  | gradTerms => exact plain.gradTerms_eq false
  | lagrGrad => exact plain.lagrGrad_eq false
  | merit =>
      simp only [perform, plain.merit, Composed.merit, Combined.steps]
      split
      · simp only [follow, step]
        rcases p.cost a.x with e | f <;> rfl
      · exact plain.costWithShifted_eq
  | meritGradFrom =>
      simp only [perform, plain.meritGradFrom, Composed.meritGradFrom, Combined.steps]
      split
      · simp only [follow, step]
        rcases p.costGrad a.x b.grad with ⟨grad, e | ⟨⟩⟩ <;> rfl
      · exact plain.lagrGrad_eq false
  | meritGrad =>
      rw [perform, Combined.steps]
      split
      · rename_i none
        rw [plain.meritGrad, Composed.meritGrad, if_pos none, follow, step]
        rcases p.costGrad a.x b.grad with ⟨grad, e | ⟨⟩⟩ <;> rfl
      · rename_i constrained
        have constrained := Nat.pos_of_ne_zero constrained
        have gradient := plain.meritGradFrom_after constrained (shiftedValues_eq (a := a) (b := b))
          fun _ => ()
        simp only [Written.map_unit, Written.void] at gradient
        rw [plain.meritGrad_eq constrained]
        exact gradient
  | meritWithGrad =>
      rw [perform, Combined.steps]
      split
      · rename_i none
        rw [plain.meritWithGrad, Composed.meritWithGrad, if_pos none]
        exact plain.costWithGrad_eq
      · rename_i constrained
        have constrained := Nat.pos_of_ne_zero constrained
        rw [plain.toComposes.meritWithGrad_eq constrained]
        have merit := plain.costWithShifted_eq (a := a) (b := b)
        rw [← plain.toComposes.merit_eq constrained] at merit
        exact plain.meritGradFrom_after constrained merit id

end Problem

/-! ## Primitives that are supplied -/

section Supplied

variable {R : Type} [Scalar R]

/-- Whether a primitive is supplied. -/
def Primitives.supplies {R : Type} (prims : Primitives R) : Primitive → Bool
  | .cost => prims.cost?.isSome
  | .costGrad => prims.costGrad?.isSome
  | .constr => prims.constr?.isSome
  | .constrGradProd => prims.constrGradProd?.isSome
  | .constrGrad => prims.constrGrad?.isSome
  | .lagrHessProd => prims.lagrHessProd?.isSome
  | .lagrHess => prims.lagrHess?.isSome

/-- Succeeds on buffers of the size and leaves as many entries. -/
def Fills {R : Type} (write : Writes R Unit) (size : Nat) : Prop :=
  ∀ {buffer : List R}, buffer.length = size →
    ∃ kept, write buffer = .done kept () ∧ kept.length = size

theorem fills_overwriteAll {R : Type} (values : List R) :
    Fills (overwriteAll values) values.length := by
  intro buffer length
  exact ⟨values, if_pos length.symm, rfl⟩

/-- The primitives of composed evaluations succeed at the point, where they are supplied. -/
structure Primitives.Oblige (prims : Primitives R) (c : Constraints R) (x : List R) : Prop where
  cost : ∀ f ∈ prims.cost?, ∃ v, f x = .ok v
  costGrad : ∀ f ∈ prims.costGrad?, Fills (f x) c.n
  constr : ∀ f ∈ prims.constr?, Fills (f x) c.m
  constrGradProd : ∀ f ∈ prims.constrGradProd?, ∀ y : List R, y.length = c.m → Fills (f x y) c.n

/-- The buffers have an entry for each variable and each constraint. -/
structure Buffers.Sized (b : Buffers R) (c : Constraints R) : Prop where
  grad : b.grad.length = c.n
  work : b.work.length = c.n
  values : b.values.length = c.m

/-- There is a multiplier for each constraint, and one weight for all constraints or one each. -/
structure Arguments.Sized (a : Arguments R) (c : Constraints R) : Prop where
  y : a.y.length = c.m
  weights : a.weights.length = 1 ∨ a.weights.length = c.m

theorem Composed.length_addOnto (as bs : List R) : (addOnto as bs).length = as.length := by
  fun_induction addOnto as bs with
  | case1 a as b bs ih => simp [ih]
  | case2 => rfl

end Supplied

/-- Among steps of which some lack their primitive there is a first. -/
theorem Primitives.exists_first_absent {R : Type} {prims : Primitives R} {steps : List Step}
    (some : ∃ q ∈ steps.filterMap Step.primitive?, prims.supplies q = false) :
    ∃ before s after q, steps = before ++ s :: after ∧ s.primitive? = .some q ∧
      prims.supplies q = false ∧
      ∀ r ∈ before.filterMap Step.primitive?, prims.supplies r = true := by
  induction steps with
  | nil =>
      obtain ⟨q, member, -⟩ := some
      cases member
  | cons s steps ih =>
      by_cases here : ∃ q, s.primitive? = .some q ∧ prims.supplies q = false
      · obtain ⟨q, calls, absent⟩ := here
        exact ⟨[], s, steps, q, rfl, calls, absent, List.forall_mem_nil _⟩
      · have supplied : ∀ q, s.primitive? = .some q → prims.supplies q = true := fun q calls =>
          eq_true_of_ne_false fun absent => here ⟨q, calls, absent⟩
        obtain ⟨q, member, absent⟩ := some
        obtain ⟨t, among, calls⟩ := List.mem_filterMap.1 member
        have later : t ∈ steps := (List.mem_cons.1 among).resolve_left fun same =>
          here ⟨q, same ▸ calls, absent⟩
        obtain ⟨before, t, after, q, split, calls, absent, rest⟩ :=
          ih ⟨q, List.mem_filterMap.2 ⟨t, later, calls⟩, absent⟩
        refine ⟨s :: before, t, after, q, by rw [split, List.cons_append], calls, absent, ?_⟩
        intro r member
        obtain ⟨u, among, calls⟩ := List.mem_filterMap.1 member
        rcases List.mem_cons.1 among with rfl | among
        · exact supplied r calls
        · exact rest r (List.mem_filterMap.2 ⟨u, among, calls⟩)

namespace Problem

variable {R : Type} [Scalar R] {p : Problem R} {a : Arguments R} {b : Buffers R}

/-! ## Following steps -/

theorem step_untouched {s : Step} {slot : Slot} (other : s.slot? ≠ some slot) :
    (p.step a b s).kept.get slot = b.get slot := by
  cases s <;> cases slot <;> first | rfl | exact absurd rfl other

/-- A buffer that no step writes to is left alone. -/
theorem follow_untouched {steps : List Step} {slot : Slot}
    (others : ∀ s ∈ steps, s.slot? ≠ some slot) :
    (p.follow a steps b).kept.get slot = b.get slot := by
  induction steps generalizing b with
  | nil => rfl
  | cons s steps ih =>
      obtain ⟨here, later⟩ := List.forall_mem_cons.1 others
      have first : (p.step a b s).kept.get slot = b.get slot := step_untouched here
      rw [follow]
      rcases stepped : p.step a b s with ⟨kept, e | ⟨⟩⟩
      all_goals rw [stepped] at first
      · exact first
      · exact (ih later).trans first

section Primitives

variable {c : Constraints R} (duplicable : Except EvalError Unit) {prims : Primitives R}

/-- A step fails for lack of its primitive, and leaves the buffers alone. -/
theorem step_of_missing {s : Step} {q : Primitive} (calls : s.primitive? = some q)
    (absent : prims.supplies q = false) :
    (assemble c duplicable prims {}).step a b s = .failed b (.missing q) := by
  cases s <;> cases calls
  all_goals
    have none := Option.not_isSome_iff_eq_none.1 (Bool.eq_false_iff.1 absent)
    simp only [step, assemble, none, Option.map_none, orMissing]
    rfl

/-- With its primitive a step succeeds, and so do the others. -/
theorem step_of_supplied (oblige : prims.Oblige c a.x) (sized : b.Sized c) (readable : a.Sized c)
    {s : Step} (supplied : ∀ q, s.primitive? = some q → prims.supplies q = true) :
    ∃ kept, (assemble c duplicable prims {}).step a b s = .done kept () ∧ kept.Sized c := by
  cases s with
  | cost =>
      obtain ⟨f, given⟩ := Option.isSome_iff_exists.1 (supplied .cost rfl)
      obtain ⟨v, value⟩ := oblige.cost f given
      refine ⟨b, ?_, sized⟩
      simp only [step, assemble, given, value]
      rfl
  | costGrad =>
      obtain ⟨f, given⟩ := Option.isSome_iff_exists.1 (supplied .costGrad rfl)
      obtain ⟨grad, written, length⟩ := oblige.costGrad f given sized.grad
      refine ⟨{ b with grad }, ?_, length, sized.work, sized.values⟩
      simp only [step, assemble, given, Option.map_some, orMissing, written]
      rfl
  | constr =>
      obtain ⟨f, given⟩ := Option.isSome_iff_exists.1 (supplied .constr rfl)
      obtain ⟨values, written, length⟩ := oblige.constr f given sized.values
      refine ⟨{ b with values }, ?_, sized.grad, sized.work, length⟩
      simp only [step, assemble, given, Option.map_some, orMissing, written]
      rfl
  | constrGradProd shifted =>
      obtain ⟨f, given⟩ := Option.isSome_iff_exists.1 (supplied .constrGradProd rfl)
      have multipliers : (if shifted then b.values else a.y).length = c.m := by
        cases shifted
        · exact readable.y
        · exact sized.values
      obtain ⟨work, written, length⟩ := oblige.constrGradProd f given _ multipliers sized.work
      refine ⟨{ b with work }, ?_, sized.grad, length, sized.values⟩
      simp only [step, assemble, given, Option.map_some, orMissing, written]
      rfl
  | kernel =>
      obtain ⟨values, total, shifted⟩ : ∃ values total,
          Multipliers.shifted c.values b.values a.y a.weights = .done values total :=
        ⟨_, _, Multipliers.shifted_eq sized.values readable.y readable.weights⟩
      have length := (Multipliers.length_of_shifted shifted).trans sized.values
      refine ⟨{ b with values }, ?_, sized.grad, sized.work, length⟩
      show (Written.on (Multipliers.shifted c.values b.values a.y a.weights) _).void = _
      rw [shifted]
      rfl
  | sum =>
      exact ⟨_, rfl, (Composed.length_addOnto _ _).trans sized.grad, sized.work, sized.values⟩

/-- Steps whose primitives are all supplied succeed. -/
theorem follow_of_supplied (oblige : prims.Oblige c a.x) (sized : b.Sized c)
    (readable : a.Sized c) {steps : List Step}
    (supplied : ∀ q ∈ steps.filterMap Step.primitive?, prims.supplies q = true) :
    ∃ kept, (assemble c duplicable prims {}).follow a steps b = .done kept () := by
  induction steps generalizing b with
  | nil => exact ⟨b, rfl⟩
  | cons s steps ih =>
      have here : ∀ q, s.primitive? = some q → prims.supplies q = true := fun q calls =>
        supplied q (List.mem_filterMap.2 ⟨s, List.mem_cons_self, calls⟩)
      have later : ∀ q ∈ steps.filterMap Step.primitive?, prims.supplies q = true := by
        intro q member
        obtain ⟨s', among, calls⟩ := List.mem_filterMap.1 member
        exact supplied q (List.mem_filterMap.2 ⟨s', List.mem_cons_of_mem s among, calls⟩)
      obtain ⟨next, stepped, sized⟩ := step_of_supplied duplicable oblige sized readable here
      obtain ⟨kept, followed⟩ := ih sized later
      exact ⟨kept, by rw [follow, stepped, Written.andThen_done, followed]⟩

/-- Steps fail at the first primitive that is absent. -/
theorem follow_of_missing {kept : Buffers R} {before after : List Step} {s : Step} {q : Primitive}
    (followed : (assemble c duplicable prims {}).follow a before b = .done kept ())
    (calls : s.primitive? = some q) (absent : prims.supplies q = false) :
    (assemble c duplicable prims {}).follow a (before ++ s :: after) b =
      .failed kept (.missing q) := by
  rw [follow_append, followed, Written.andThen_done, follow,
    step_of_missing duplicable calls absent, Written.andThen_failed]

/-! ## Evaluations -/

variable (oblige : prims.Oblige c a.x) (sized : b.Sized c) (readable : a.Sized c) {op : Combined}

include oblige sized readable

theorem perform_of_supplied (supplied : ∀ q ∈ op.order c.m, prims.supplies q = true) :
    ((assemble c duplicable prims {}).perform a b op).Succeeds := by
  obtain ⟨kept, followed⟩ := follow_of_supplied duplicable oblige sized readable supplied
  have steps := (unassisted_assemble c duplicable prims).perform_eq_follow (a := a) (b := b) op
  exact (steps.trans followed) ▸ Written.succeeds_done kept ()

theorem perform_of_missing {before after : List Step} {s : Step} {q : Primitive}
    (split : op.steps c.m = before ++ s :: after) (calls : s.primitive? = some q)
    (absent : prims.supplies q = false)
    (supplied : ∀ r ∈ before.filterMap Step.primitive?, prims.supplies r = true) :
    ∃ kept, (assemble c duplicable prims {}).follow a before b = .done kept () ∧
      (assemble c duplicable prims {}).perform a b op = .failed kept (.missing q) := by
  obtain ⟨kept, followed⟩ := follow_of_supplied duplicable oblige sized readable supplied
  have steps : (assemble c duplicable prims {}).perform a b op =
      (assemble c duplicable prims {}).follow a (op.steps c.m) b :=
    (unassisted_assemble c duplicable prims).perform_eq_follow op
  refine ⟨kept, followed, ?_⟩
  rw [steps, split]
  exact follow_of_missing duplicable followed calls absent

end Primitives

/-- How a composed evaluation of a problem goes that may lack primitives. -/
structure Attempts (p : Problem R) (prims : Primitives R) (a : Arguments R) (b : Buffers R)
    (op : Combined) : Prop where
  /-- It is its steps, in order. -/
  steps : p.perform a b op = p.follow a (op.steps p.m) b
  fails_iff : ¬ (p.perform a b op).Succeeds ↔ ∃ q ∈ op.order p.m, prims.supplies q = false
  /-- It fails with the error of the first primitive that is absent, and leaves what the steps
  before have left.  Buffers to which none of them writes are as they were. -/
  residue : ∀ {before s after q}, op.steps p.m = before ++ s :: after → s.primitive? = some q →
    prims.supplies q = false →
    (∀ r ∈ before.filterMap Step.primitive?, prims.supplies r = true) →
    ∃ kept, p.follow a before b = .done kept () ∧ p.perform a b op = .failed kept (.missing q) ∧
      ∀ slot, (∀ t ∈ before, t.slot? ≠ some slot) → kept.get slot = b.get slot

/-- Every composed evaluation attempts its primitives in a fixed order.  It fails exactly if one of
them is absent, with the error of the first such, and then its buffers hold what the steps before
that one have put there. -/
theorem missing_primitives {c : Constraints R} {prims : Primitives R} (oblige : prims.Oblige c a.x)
    (sized : b.Sized c) (readable : a.Sized c) (duplicable : Except EvalError Unit)
    (op : Combined) : (assemble c duplicable prims {}).Attempts prims a b op where
  steps := (unassisted_assemble c duplicable prims).perform_eq_follow op
  fails_iff := by
    constructor
    · intro fails
      by_contra none
      refine fails (perform_of_supplied duplicable oblige sized readable fun q member => ?_)
      exact eq_true_of_ne_false fun absent => none ⟨q, member, absent⟩
    · intro some
      obtain ⟨before, s, after, q, split, calls, absent, supplied⟩ :=
        Primitives.exists_first_absent some
      obtain ⟨kept, -, failed⟩ := perform_of_missing duplicable oblige sized readable split calls
        absent supplied
      rw [failed]
      exact Written.not_succeeds_failed _ _
  residue {before _ _ _} split calls absent supplied := by
    obtain ⟨kept, followed, failed⟩ := perform_of_missing duplicable oblige sized
      readable split calls absent supplied
    refine ⟨kept, followed, failed, fun slot others => ?_⟩
    have untouched :
        ((assemble c duplicable prims {}).follow a before b).kept.get slot = b.get slot :=
      follow_untouched others
    rw [followed] at untouched
    exact untouched

example : Combined.order 2 .meritWithGrad = [.constr, .cost, .costGrad, .constrGradProd] := rfl

/-- One variable that is its own cost and its own constraint value.  The product with the
constraint's gradient is absent. -/
def ungraded : Primitives (Exact ℚ) where
  cost? := some fun x => .ok (x.headD 0.0)
  costGrad? := some fun _ => overwriteAll [1.0]
  constr? := some fun x => overwriteAll [x.headD 0.0]

/-- The merit function with its gradient fails after the gradient of the cost.  By then the shifted
multiplier stands in place of the constraint value, and the work vector is as it was. -/
theorem ungraded_missing_primitives :
    let c : Constraints (Exact ℚ) := ⟨.unbounded 1, ⟨[.between 0.0 1.0 Scalar.zero_le_one]⟩⟩
    let a : Arguments (Exact ℚ) := ⟨[2.0], [1.0], [4.0]⟩
    let b : Buffers (Exact ℚ) := ⟨[-7.0], [-7.0], [-7.0]⟩
    ungraded.Oblige c a.x ∧ b.Sized c ∧ a.Sized c ∧
      (assemble c (.ok ()) ungraded {}).perform a b .meritWithGrad =
        .failed ⟨[1.0], [-7.0], [5.0]⟩ (.missing .constrGradProd) := by
  intro c a b
  have oblige : ungraded.Oblige c a.x := by
    refine ⟨?_, ?_, ?_, nofun⟩
    all_goals
      rintro f ⟨⟩
    · exact ⟨_, rfl⟩
    · exact fills_overwriteAll [1.0]
    · exact fills_overwriteAll [2.0]
  have sized : b.Sized c := ⟨rfl, rfl, rfl⟩
  have readable : a.Sized c := ⟨rfl, .inl rfl⟩
  have split : Combined.steps c.m .meritWithGrad =
      [.constr, .cost, .kernel, .costGrad] ++ .constrGradProd true :: [.sum] := rfl
  obtain ⟨kept, followed, failed, -⟩ :=
    (missing_primitives oblige sized readable (.ok ()) .meritWithGrad).residue split rfl rfl
      (by decide)
  have left : ((assemble c (.ok ()) ungraded {}).follow a [.constr, .cost, .kernel, .costGrad]
      b).kept = ⟨[1.0], [-7.0], [5.0]⟩ := by decide +kernel
  rw [followed] at left
  obtain rfl : kept = _ := left
  exact ⟨oblige, sized, readable, failed⟩

end Problem

end AugmentedLagrangian

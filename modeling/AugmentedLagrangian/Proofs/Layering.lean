/- # AugmentedLagrangian.Proofs.Layering — what layers around a problem do, and what they do not

A call of a problem under layers is made of the outermost one.  Each layer passes it on to what it
is around, and counts it when the reply comes back (`Layer.pass`).  By induction on the layers the
reply that comes out at the top is the problem's own, and every counting layer has counted the call
once, as the operation that was called (`Layer.pass_eq`); so this is what a computation under layers
does (`Consult.through_call`).  It is also what the evaluations of a wrapped problem do, which are
written out for each kind of layer (`Layered.call_wrap`).

A problem that is held can be called, and its outermost counter can be set back to zero.  After any
sequence of such uses a counter has counted the calls made since it was last set back, and only the
outermost one ever is.  What a call is to be counted as is said by `Call.isOf`, call by call.
Counts are words, so they are right below `2 ^ 64`.
-/
import Mathlib
import AugmentedLagrangian.Problem.Handle

namespace AugmentedLagrangian

set_option autoImplicit false

variable {R : Type}

/-! ## One call -/

/-- A counter notes the calls of each operation for itself. -/
theorem Counter.calls_noted (counter : Counter) (c : Call R) (reply : c.Reply) (op : Operation) :
    (counter.noted c reply).calls.get op =
      counter.calls.get op + if c.operation = some op && reply.happened then 1 else 0 := by
  rw [Counter.noted]
  cases called : c.operation with
  | none => simp
  | some op' =>
      cases happened : reply.happened with
      | false => simp
      | true =>
          by_cases same : op = op'
          · subst same
            simp [Counter.tick]
          · simp [Counter.tick, Chart.get_set, same, Ne.symm same]

namespace Layer

/-- The layer after a call with this reply. -/
def noted (c : Call R) (reply : c.Reply) : Layer → Layer
  | passing => passing
  | counted counter => counted (counter.noted c reply)

/-- Every layer meets the call for itself. -/
theorem after_eq_map (layers : List Layer) (c : Call R) (reply : c.Reply) :
    after layers c reply = layers.map (noted c reply) := by
  rw [after]
  cases called : c.operation with
  | none =>
      have same : ∀ layer, noted c reply layer = layer := by
        intro layer
        cases layer with
        | passing => rfl
        | counted counter => simp [noted, Counter.noted, called]
      rw [funext same, List.map_id']
  | some op =>
      have ticks : ∀ layer, noted c reply layer =
          if reply.happened then tick op layer else layer := by
        intro layer
        cases layer with
        | passing => simp [noted, tick]
        | counted counter =>
            cases happened : reply.happened <;> simp [noted, Counter.noted, called, happened, tick]
      rw [funext ticks]
      cases reply.happened with
      | true => rfl
      | false => exact (List.map_id' _).symm

/-- The reply is that of the problem at the bottom, and every layer has met the call. -/
theorem pass_eq [Scalar R] (p : Problem R) (c : Call R) (layers : List Layer) :
    pass p c layers = (p.answer c, after layers c (p.answer c)) := by
  induction layers with
  | nil => rw [after_eq_map]; rfl
  | cons layer layers ih =>
      rw [after_eq_map] at ih ⊢
      cases layer with
      | passing => rw [pass, ih]; rfl
      | counted counter => rw [pass, ih]; rfl

/-- Every counter notes the call for itself. -/
theorem counters_after (layers : List Layer) (c : Call R) (reply : c.Reply) :
    counters (after layers c reply) = (counters layers).map (·.noted c reply) := by
  rw [after_eq_map]
  induction layers with
  | nil => rfl
  | cons layer layers ih =>
      cases layer with
      | passing => exact ih
      | counted counter => exact congrArg (_ :: ·) ih

/-- Setting back leaves all counters but the outermost alone. -/
theorem counters_reset (layers : List Layer) :
    counters (reset layers) =
      match counters layers with
      | [] => []
      | _ :: inner => .zero :: inner := by
  induction layers with
  | nil => rfl
  | cons layer layers ih =>
      cases layer with
      | passing => exact ih
      | counted counter => rfl

end Layer

/-- A call under layers is made of the outermost one. -/
theorem Consult.through_call [Scalar R] (p : Problem R) (c : Call R) (layers : List Layer) :
    (Consult.call c).through p layers = Layer.pass p c layers :=
  (Layer.pass_eq p c layers).symm

/-! ## The evaluations of a wrapped problem -/

namespace Layered

variable [Scalar R]

theorem call_bare (p : Problem R) (c : Call R) : (bare p).call c = (p.answer c, []) := by
  cases c <;> rfl

/-- Every evaluation goes to the one of the same name. -/
theorem call_boxed (inner : Layered R) (c : Call R) :
    (boxed inner).call c = (inner.call c).under .passing := by
  cases c <;> rfl

/-- Every evaluation goes to the one of the same name, and is noted with its reply. -/
theorem call_counted (counter : Counter) (inner : Layered R) (c : Call R) :
    (counted counter inner).call c =
      (inner.call c).under (.counted (counter.noted c (inner.call c).1)) := by
  cases c <;> rfl

/-- Calling a wrapped problem is passing the call through the layers. -/
theorem call_wrap (p : Problem R) (c : Call R) (layers : List Layer) :
    (wrap p layers).call c = Layer.pass p c layers := by
  induction layers with
  | nil => exact call_bare p c
  | cons layer layers ih =>
      cases layer with
      | passing =>
          rw [wrap, call_boxed, ih]
          rfl
      | counted counter =>
          rw [wrap, call_counted, ih]
          rfl

/-- Wrapping leaves the numbers of variables and constraints and the boxes alone. -/
theorem constraints_wrap (p : Problem R) (layers : List Layer) :
    (wrap p layers).constraints = p.constraints := by
  induction layers with
  | nil => rfl
  | cons layer layers ih => cases layer <;> exact ih

end Layered

/-! ## Any sequence of uses -/

/-- Whether the call is to be counted as the operation.  Turning constraint values into shifted
multipliers is not to be counted. -/
def Call.isOf : Operation → Call R → Bool
  | .cost, .cost .. => true
  | .costGrad, .costGrad .. => true
  | .costWithGrad, .costWithGrad .. => true
  | .costWithConstr, .costWithConstr .. => true
  | .costWithGradConstr, .costWithGradConstr .. => true
  | .gradTerms, .gradTerms .. => true
  | .constr, .constr .. => true
  | .constrGradProd, .constrGradProd .. => true
  | .constrGrad, .constrGrad .. => true
  | .lagrGrad, .lagrGrad .. => true
  | .lagrHessProd, .lagrHessProd .. => true
  | .lagrHess, .lagrHess .. => true
  | .merit, .merit .. => true
  | .meritGrad, .meritGrad .. => true
  | .meritGradFrom, .meritGradFrom .. => true
  | .meritWithGrad, .meritWithGrad .. => true
  | _, _ => false

theorem Call.isOf_eq (op : Operation) (c : Call R) :
    c.isOf op = decide (c.operation = some op) := by
  cases c <;> cases op <;> rfl

/-- What may be done with a problem that is held. -/
inductive Use (R : Type) where
  | call (c : Call R)
  /-- Sets the outermost counter back to zero. -/
  | reset

namespace Use

def isReset : Use R → Bool
  | call _ => false
  | reset => true

/-- The uses since the last reset; all of them, if there was none. -/
def sinceReset : List (Use R) → List (Use R)
  | [] => []
  | call c :: us => if us.any isReset then sinceReset us else call c :: us
  | reset :: us => sinceReset us

theorem sinceReset_of_none {us : List (Use R)} (none : us.any isReset = false) :
    sinceReset us = us := by
  cases us with
  | nil => rfl
  | cons u us =>
      cases u with
      | reset => cases none
      | call c =>
          have none : us.any isReset = false := none
          rw [sinceReset, none]
          rfl

variable [Scalar R]

/-- Whether the use is a call of the operation that has an outcome, be it a value or an error. -/
def counts (p : Problem R) (op : Operation) : Use R → Bool
  | call c => c.isOf op && (p.answer c).happened
  | reset => false

/-- How many of the uses are calls of the operation. -/
def made (p : Problem R) (op : Operation) (us : List (Use R)) : Nat :=
  us.countP (counts p op)

/-- How many calls of the operation a counter has counted that began with the number `start`.  Only
the outermost is ever set back. -/
def tally (p : Problem R) (op : Operation) (outermost : Bool) (start : Nat) (us : List (Use R)) :
    Nat :=
  if outermost && us.any isReset then made p op (sinceReset us) else start + made p op us

/-- The reply to the use, when it is made of the problem directly. -/
def direct? (p : Problem R) : Use R → Option ((c : Call R) × c.Reply)
  | call c => some ⟨c, p.answer c⟩
  | reset => none

/-- What a counter's number is after the use. -/
def next (p : Problem R) (op : Operation) (outermost : Bool) (start : Nat) : Use R → Nat
  | call c => start + if counts p op (call c) then 1 else 0
  | reset => if outermost then 0 else start

theorem tally_cons (p : Problem R) (op : Operation) (outermost : Bool) (start : Nat) (u : Use R)
    (us : List (Use R)) :
    tally p op outermost start (u :: us) =
      tally p op outermost (next p op outermost start u) us := by
  have first : made p op (u :: us) = (if counts p op u then 1 else 0) + made p op us := by
    rw [made, List.countP_cons, Nat.add_comm]
    rfl
  cases outermost with
  | false =>
      cases u with
      | call c =>
          show start + made p op (call c :: us) = start + _ + made p op us
          rw [first, Nat.add_assoc]
      | reset =>
          show start + made p op (reset :: us) = start + made p op us
          rw [first, if_neg (by simp [counts]), Nat.zero_add]
  | true =>
      cases some : us.any isReset with
      | true =>
          cases u <;> simp [tally, sinceReset, isReset, some]
      | false =>
          cases u with
          | call c =>
              simp only [tally, List.any_cons, isReset, some, next, first]
              simp [Nat.add_assoc]
          | reset => simp [tally, sinceReset, sinceReset_of_none some, isReset, some, next]

end Use

/-- The counter after the use, if it is the outermost one or not. -/
def Counter.used [Scalar R] (p : Problem R) (outermost : Bool) (counter : Counter) : Use R → Counter
  | .call c => counter.noted c (p.answer c)
  | .reset => if outermost then .zero else counter

theorem Counter.calls_used [Scalar R] {p : Problem R} {op : Operation} {outermost : Bool}
    {counter : Counter} {start : Nat} (shown : counter.calls.get op = .ofNat start) (u : Use R) :
    (counter.used p outermost u).calls.get op = .ofNat (u.next p op outermost start) := by
  cases u with
  | call c =>
      rw [Counter.used, Counter.calls_noted, shown, Use.next, UInt64.ofNat_add, Use.counts,
        Call.isOf_eq]
      cases decide (c.operation = some op) && (p.answer c).happened <;> rfl
  | reset =>
      cases outermost with
      | true => exact Chart.get_const 0 op
      | false => exact shown

/-- A counter that begins with a number has the tally in the end. -/
theorem Counter.calls_foldl [Scalar R] {p : Problem R} {op : Operation} {outermost : Bool}
    {counter : Counter} {start : Nat} (shown : counter.calls.get op = .ofNat start)
    (us : List (Use R)) :
    (us.foldl (Counter.used p outermost) counter).calls.get op =
      .ofNat (Use.tally p op outermost start us) := by
  induction us generalizing counter start with
  | nil => simpa [Use.tally, Use.made] using shown
  | cons u us ih =>
      rw [List.foldl_cons, Use.tally_cons]
      exact ih (Counter.calls_used shown u)

namespace Handle

variable [Scalar R]

/-- The reply, if the use is a call, and the handle afterwards. -/
def use (h : Handle R) : Use R → Option ((c : Call R) × c.Reply) × Handle R
  | .call c =>
    let (reply, h) := h.consult (.call c)
    (some ⟨c, reply⟩, h)
  | .reset => (none, h.reset)

/-- The replies to a sequence of uses, and the handle afterwards. -/
def uses (h : Handle R) : List (Use R) → List ((c : Call R) × c.Reply) × Handle R
  | [] => ([], h)
  | u :: us =>
    let (reply, h) := h.use u
    let (replies, h) := h.uses us
    (reply.toList ++ replies, h)

/-- What there is to see of the layers after a sequence of uses. -/
structure Transparent (h : Handle R) (us : List (Use R)) : Prop where
  /-- The evaluations of the wrapped problem are what a call comes to. -/
  wrapped : ∀ c layers,
    (Layered.wrap h.problem layers).call c = (Consult.call c).through h.problem layers
  constraints : ∀ layers, (Layered.wrap h.problem layers).constraints = h.problem.constraints
  /-- A call is made of the outermost layer, and goes from layer to layer. -/
  passed : ∀ c layers, (Consult.call c).through h.problem layers = Layer.pass h.problem c layers
  /-- Every reply is the problem's own. -/
  replies : (h.uses us).1 = us.filterMap (Use.direct? h.problem)
  /-- The problem, and with it the numbers of variables and constraints and the boxes, stays. -/
  problem : (h.uses us).2.problem = h.problem
  length : (h.uses us).2.counters.length = h.counters.length
  /-- Every counter has counted the calls of every operation. -/
  counts : ∀ {i counter}, h.counters[i]? = some counter →
    ∃ counter', (h.uses us).2.counters[i]? = some counter' ∧ ∀ op,
      (counter'.calls.get op).toNat =
        Use.tally h.problem op (i == 0) (counter.calls.get op).toNat us % 2 ^ 64

/-- One use: the reply is direct, the problem stays, and each counter is used for itself. -/
theorem use_eq (h : Handle R) (visible : h.erased = false) (u : Use R) :
    (h.use u).1 = u.direct? h.problem ∧ (h.use u).2.model = h.model ∧
      (h.use u).2.erased = false ∧
      ∀ i, (h.use u).2.counters[i]? = h.counters[i]?.map (Counter.used h.problem (i == 0) · u) := by
  obtain ⟨model, layers, erased⟩ := h
  obtain rfl : erased = false := visible
  cases u with
  | call c =>
      refine ⟨rfl, rfl, rfl, fun i => ?_⟩
      show (Layer.counters (Layer.after layers c (model.problem.answer c)))[i]? = _
      rw [Layer.counters_after, List.getElem?_map]
      rfl
  | reset =>
      refine ⟨rfl, rfl, rfl, fun i => ?_⟩
      show (Layer.counters (Layer.reset layers))[i]? = (Layer.counters layers)[i]?.map _
      rw [Layer.counters_reset]
      cases Layer.counters layers with
      | nil => rfl
      | cons counter inner => cases i <;> simp [Counter.used]

/-- A whole sequence of uses. -/
theorem uses_eq (h : Handle R) (visible : h.erased = false) (us : List (Use R)) :
    (h.uses us).1 = us.filterMap (Use.direct? h.problem) ∧ (h.uses us).2.model = h.model ∧
      ∀ i, (h.uses us).2.counters[i]? =
        h.counters[i]?.map (us.foldl (Counter.used h.problem (i == 0))) := by
  induction us generalizing h with
  | nil => exact ⟨rfl, rfl, fun i => Option.map_id'.symm⟩
  | cons u us ih =>
      obtain ⟨reply, model, visible', counters⟩ := h.use_eq visible u
      obtain ⟨replies, model', counters'⟩ := ih (h.use u).2 visible'
      have problem : (h.use u).2.problem = h.problem := congrArg Model.problem model
      rw [problem] at replies counters'
      refine ⟨?_, model'.trans model, fun i => ?_⟩
      · show (h.use u).1.toList ++ ((h.use u).2.uses us).1 = _
        rw [replies, reply]
        cases direct : u.direct? h.problem with
        | none => rw [List.filterMap_cons_none direct]; rfl
        | some r => rw [List.filterMap_cons_some direct]; rfl
      · show ((h.use u).2.uses us).2.counters[i]? = _
        rw [counters', counters, Option.map_map]
        rfl

/-- Layers are transparent and count exactly.  Whatever is done with a problem under layers, every
reply is the problem's own, and every counter has counted the calls of every operation that came to
an outcome, since it was made or last set back. -/
theorem transparent (model : Model R) (layers : List Layer) (us : List (Use R)) :
    (⟨model, layers, false⟩ : Handle R).Transparent us := by
  obtain ⟨replies, same, counters⟩ := uses_eq (⟨model, layers, false⟩ : Handle R) rfl us
  refine ⟨fun c layers => ?_, Layered.constraints_wrap model.problem,
    Consult.through_call model.problem, replies, congrArg Model.problem same, ?_, ?_⟩
  · rw [Layered.call_wrap, Consult.through_call]
  · have each : ((⟨model, layers, false⟩ : Handle R).uses us).2.counters =
        (Layer.counters layers).mapIdx fun i => us.foldl (Counter.used model.problem (i == 0)) :=
      List.ext_getElem? fun i => by rw [counters, List.getElem?_mapIdx]; rfl
    rw [each, List.length_mapIdx]
    rfl
  · intro i counter shown
    refine ⟨_, by rw [counters, shown]; rfl, fun op => ?_⟩
    rw [Counter.calls_foldl UInt64.ofNat_toNat.symm us, UInt64.toNat_ofNat']

/-- A problem that supplies its cost and nothing else, under two counters. -/
def nested : Handle Float where
  model := .primitives ⟨.unbounded 1, .unbounded 1⟩ { cost? := some fun _ => .ok 0.0 }
  layers := [.counted .zero, .passing, .counted .zero]

/-- One call of every kind, in the order of reports; the last is not counted. -/
def oneEach : List (Call Float) :=
  [.cost [1.0], .costGrad [1.0] [0.0], .costWithGrad [1.0] [0.0], .costWithConstr [1.0] [0.0],
    .costWithGradConstr [1.0] [0.0] [0.0], .gradTerms [1.0] [2.0] [0.0] [0.0],
    .constr [1.0] [0.0], .constrGradProd [1.0] [2.0] [0.0], .constrGrad [1.0] 0 [0.0],
    .lagrGrad [1.0] [2.0] [0.0] [0.0], .lagrHessProd [1.0] [2.0] [3.0] [0.0],
    .lagrHess [1.0] [2.0] [[0.0]], .merit [1.0] [2.0] [3.0] [0.0],
    .meritGrad [1.0] [2.0] [3.0] [0.0] [0.0] [0.0], .meritGradFrom [1.0] [2.0] [0.0] [0.0],
    .meritWithGrad [1.0] [2.0] [3.0] [0.0] [0.0] [0.0], .shifted [0.0] [2.0] [3.0]]

/-- Every call once and a reset, then the first call once, the second twice, and so on. -/
def rising : List (Use Float) :=
  oneEach.map .call ++
    .reset :: oneEach.zipIdx.flatMap fun (c, i) => List.replicate (i + 1) (.call c)

/-- Every slot has the calls of its own operation, whether they fail or not: in the outermost
counter those after the reset, and in the one below it all of them. -/
theorem transparent_rising :
    ∃ outer inner, (nested.uses rising).2.counters = [outer, inner] ∧
      Operation.all.map (fun op => (outer.calls.get op).toNat) =
        [1, 2, 3, 4, 5, 6, 7, 8, 9, 10, 11, 12, 13, 14, 15, 16] ∧
      Operation.all.map (fun op => (inner.calls.get op).toNat) =
        [2, 3, 4, 5, 6, 7, 8, 9, 10, 11, 12, 13, 14, 15, 16, 17] := by
  have seen := transparent nested.model nested.layers rising
  have zero : nested.counters[0]? = some .zero := rfl
  have one : nested.counters[1]? = some .zero := rfl
  obtain ⟨outer, outermost, after_reset⟩ := seen.counts zero
  obtain ⟨inner, innermost, all⟩ := seen.counts one
  obtain ⟨first, second, both⟩ := List.length_eq_two.1 seen.length
  rw [both] at outermost innermost
  cases outermost
  cases innermost
  refine ⟨outer, inner, both, ?_, ?_⟩
  · rw [List.map_congr_left fun op _ => after_reset op]
    decide +kernel
  · rw [List.map_congr_left fun op _ => all op]
    decide +kernel

end Handle

end AugmentedLagrangian

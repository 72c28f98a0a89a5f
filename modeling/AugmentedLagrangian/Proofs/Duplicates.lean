/- # AugmentedLagrangian.Proofs.Duplicates — a duplicate is what the original was

A problem under layers is duplicated from inside out.  The problem at the bottom says whether it can
be, and every counting layer is made afresh around the duplicate of what it is around
(`Layer.duplicate`).  An error comes out as it is, whatever the number of layers.

Problems are held in a session, in which each can be called, counted afresh, given other parameters
and other boxes, unwrapped, copied and duplicated, in any order.  A duplicate shows its evaluations
only, so nothing that is done to it or to the others changes what it answers: it goes on to answer
as the original did at the moment when it was made (`Handle.duplicate_faithful`).
-/
import AugmentedLagrangian.Proofs.BoxHistory
import AugmentedLagrangian.Proofs.Layering

namespace AugmentedLagrangian

set_option autoImplicit false

variable {R : Type} [Scalar R]

/-! ## Duplicating layer by layer -/

namespace Layer

theorem counters_fresh (layers : List Layer) :
    counters (layers.map fresh) = (counters layers).map fun _ => .zero := by
  induction layers with
  | nil => rfl
  | cons layer layers ih =>
      cases layer with
      | passing => exact ih
      | counted counter => exact congrArg (Counter.zero :: ·) ih

/-- A counting layer hands on the error of what it is around, and otherwise adds a counter. -/
theorem duplicate_counted (p : Problem R) (counter : Counter) (layers : List Layer) :
    duplicate p (counted counter :: layers) =
      (duplicate p layers).map fun inner => passing :: counted .zero :: inner := by
  rw [duplicate]
  rcases duplicate p layers with (e | e | _ | _) | inner <;> rfl

/-- The problem at the bottom decides, and there is one new counter for each. -/
theorem map_counters_duplicate (p : Problem R) (layers : List Layer) :
    (duplicate p layers).map counters =
      p.duplicable.map fun _ => (counters layers).map fun _ => .zero := by
  induction layers with
  | nil =>
      rw [duplicate]
      cases p.duplicable <;> rfl
  | cons layer layers ih =>
      cases layer with
      | passing => exact ih
      | counted counter =>
          have inner : (duplicate p (counted counter :: layers)).map counters =
              ((duplicate p layers).map counters).map (Counter.zero :: ·) := by
            rw [duplicate_counted]
            cases duplicate p layers <;> rfl
          rw [inner, ih]
          cases p.duplicable <;> rfl

end Layer

/-! ## Sessions -/

/-- What may be done with one of the problems that are held. -/
inductive Deed (R : Type) where
  | use (u : Use R)
  | setParam (param : List R)
  | setEntry (i : Nat) (value : R)
  | editDomain (e : Box.Edit R)
  | editValues (e : Box.Edit R)
  /-- Takes the outermost counter away. -/
  | peel

namespace Handle

/-- Changes the family, where there is one to be seen and it can be changed so. -/
def changeFamily (h : Handle R) (change : Family R → Except EvalError (Family R)) : Handle R :=
  match h.family? with
  | none => h
  | some f =>
    match change f with
    | .ok f => h.withFamily f
    | .error _ => h

/-- Changes the boxes, where they can be changed. -/
def changeBoxes (h : Handle R) (change : Constraints R → Constraints R) : Handle R :=
  match h.boxes? with
  | none => h
  | some (constraints, put) => put (change constraints)

/-- The handle afterwards.  What is not offered or is refused changes nothing. -/
def act (h : Handle R) : Deed R → Handle R
  | .use u => (h.use u).2
  | .setParam param => h.changeFamily (·.setParam param)
  | .setEntry i value => h.changeFamily (·.setEntry i value)
  | .editDomain e => h.changeBoxes fun c => { c with domain := (c.domain.edit e).1 }
  | .editValues e => h.changeBoxes fun c => { c with values := (c.values.edit e).1 }
  | .peel => h.peel?.getD h

end Handle

/-- The problems that are held, in the order in which they came. -/
abbrev Session (R : Type) [Scalar R] := List (Handle R)

namespace Session

/-- What may happen in a session.  A duplicate and a copy are held in addition. -/
inductive Event (R : Type) where
  | act (which : Nat) (deed : Deed R)
  | duplicate (which : Nat)
  | copy (which : Nat)

def step (s : Session R) : Event R → Session R
  | .act which deed => s.modify which (·.act deed)
  | .duplicate which => s ++ (s[which]?.bind (·.duplicate.toOption)).toList
  | .copy which => s ++ (s[which]?.bind (·.copy?)).toList

def run (s : Session R) (events : List (Event R)) : Session R :=
  events.foldl step s

/-- An event changes no problem but the one that it acts on. -/
theorem getElem?_step {s : Session R} {i : Nat} (held : i < s.length) {event : Event R}
    (other : ∀ deed, event ≠ .act i deed) : (s.step event)[i]? = s[i]? := by
  cases event with
  | act which deed =>
      have apart : which ≠ i := by
        rintro rfl
        exact other deed rfl
      simp only [step, List.getElem?_modify, if_neg apart, Option.map_eq_map, Option.map_id']
  | duplicate which => exact List.getElem?_append_left held
  | copy which => exact List.getElem?_append_left held

theorem getElem?_step_act (s : Session R) (i : Nat) (deed : Deed R) :
    (s.step (.act i deed))[i]? = s[i]?.map (·.act deed) := by
  simp only [step, List.getElem?_modify, if_true, Option.map_eq_map]

theorem length_le_step (s : Session R) (event : Event R) : s.length ≤ (s.step event).length := by
  cases event with
  | act which deed => exact Nat.le_of_eq (List.length_modify ..).symm
  | duplicate which =>
      rw [step, List.length_append]
      exact Nat.le_add_right ..
  | copy which =>
      rw [step, List.length_append]
      exact Nat.le_add_right ..

/-- A problem on which no event acts stays as it is. -/
theorem getElem?_run {s : Session R} {i : Nat} (held : i < s.length) {events : List (Event R)}
    (others : ∀ deed, .act i deed ∉ events) : (s.run events)[i]? = s[i]? := by
  induction events generalizing s with
  | nil => rfl
  | cons event events ih =>
      have first : (s.step event)[i]? = s[i]? := by
        refine getElem?_step held fun deed same => others deed ?_
        rw [same]
        exact List.mem_cons_self
      have rest := ih (Nat.lt_of_lt_of_le held (s.length_le_step event))
        fun deed mem => others deed (List.mem_cons_of_mem _ mem)
      exact rest.trans first

end Session

namespace Handle

/-- Where only the evaluations can be seen, no deed changes the problem. -/
theorem act_of_erased {h : Handle R} (erased : h.erased = true) (deed : Deed R) :
    (h.act deed).erased = true ∧ (h.act deed).model = h.model := by
  have family : h.family? = none := if_pos erased
  have boxes : h.boxes? = none := if_pos erased
  cases deed with
  | use u =>
      cases u with
      | call c => exact ⟨erased, rfl⟩
      | reset =>
          have same : h.reset = h := if_pos erased
          rw [act, use, same]
          exact ⟨erased, rfl⟩
  | setParam param =>
      rw [act, changeFamily, family]
      exact ⟨erased, rfl⟩
  | setEntry i value =>
      rw [act, changeFamily, family]
      exact ⟨erased, rfl⟩
  | editDomain e =>
      rw [act, changeBoxes, boxes]
      exact ⟨erased, rfl⟩
  | editValues e =>
      rw [act, changeBoxes, boxes]
      exact ⟨erased, rfl⟩
  | peel =>
      have whole : h.peel? = none := by
        rw [peel?, erased]
      rw [act, whole]
      exact ⟨erased, rfl⟩

/-- An erased handle is there after any events, with the same problem. -/
theorem erased_run {s : Session R} {i : Nat} {d : Handle R} (held : s[i]? = some d)
    (erased : d.erased = true) (events : List (Session.Event R)) :
    ∃ d', (s.run events)[i]? = some d' ∧ d'.problem = d.problem := by
  -- a deed done to the handle may count calls, so the handle itself is not kept
  induction events generalizing s d with
  | nil => exact ⟨d, held, rfl⟩
  | cons event events ih =>
      have within : i < s.length := (List.getElem?_eq_some_iff.1 held).1
      by_cases here : ∃ deed, event = .act i deed
      · obtain ⟨deed, rfl⟩ := here
        have changed : (s.step (.act i deed))[i]? = some (d.act deed) := by
          rw [Session.getElem?_step_act, held]
          rfl
        obtain ⟨erased', same⟩ := act_of_erased erased deed
        obtain ⟨d', held', problem⟩ := ih changed erased'
        exact ⟨d', held', problem.trans (congrArg Model.problem same)⟩
      · have kept : (s.step event)[i]? = some d := by
          rw [Session.getElem?_step within fun deed same => here ⟨deed, same⟩, held]
        exact ih kept erased

/-! ## The duplicate -/

theorem duplicate_eq_ok {h d : Handle R} (made : h.duplicate = .ok d) :
    h.problem.duplicable = .ok () ∧ d = ⟨h.model, h.layers.map .fresh, true⟩ := by
  rw [duplicate] at made
  cases able : h.problem.duplicable with
  | error e =>
      rw [able] at made
      cases made
  | ok _ =>
      rw [able] at made
      cases made
      exact ⟨rfl, rfl⟩

/-- Duplicating layer by layer fails as duplicating the handle does, and gives as many counters. -/
theorem duplicate_layered (h : Handle R) :
    (Layer.duplicate h.problem h.layers).map Layer.counters =
      h.duplicate.map fun d => Layer.counters d.layers := by
  rw [Layer.map_counters_duplicate, duplicate]
  cases h.problem.duplicable with
  | error e => rfl
  | ok _ => exact congrArg Except.ok (Layer.counters_fresh h.layers).symm

theorem exists_duplicate_iff (h : Handle R) :
    (∃ d, h.duplicate = .ok d) ↔ h.problem.duplicable = .ok () := by
  constructor
  · rintro ⟨d, made⟩
    exact (duplicate_eq_ok made).1
  · intro able
    exact ⟨_, by rw [duplicate, able]; rfl⟩

theorem duplicate_eq_error_iff (h : Handle R) (e : EvalError) :
    h.duplicate = .error e ↔ h.problem.duplicable = .error e := by
  rw [duplicate]
  cases h.problem.duplicable with
  | error e' => exact ⟨fun same => by cases same; rfl, fun same => by cases same; rfl⟩
  | ok _ => exact ⟨nofun, nofun⟩

/-- The layers of the nested construction count the calls that the duplicate counts. -/
theorem pass_duplicate {h d : Handle R} {layers : List Layer} (made : h.duplicate = .ok d)
    (rebuilt : Layer.duplicate h.problem h.layers = .ok layers) (c : Call R) :
    (Layer.pass h.problem c layers).1 = (d.consult (.call c)).1 ∧
      Layer.counters (Layer.pass h.problem c layers).2 =
        Layer.counters (d.consult (.call c)).2.layers := by
  have layered := h.duplicate_layered
  rw [made, rebuilt] at layered
  have counters : Layer.counters layers = Layer.counters d.layers := Except.ok.inj layered
  obtain ⟨-, rfl⟩ := duplicate_eq_ok made
  rw [Layer.pass_eq]
  refine ⟨rfl, ?_⟩
  show Layer.counters (Layer.after layers c (h.problem.answer c)) =
    Layer.counters (Layer.after (h.layers.map .fresh) c (h.problem.answer c))
  rw [Layer.counters_after, Layer.counters_after, counters]

/-- A duplicate is held last. -/
theorem getElem?_duplicated {s : Session R} {k : Nat} {h d : Handle R} (held : s[k]? = some h)
    (made : h.duplicate = .ok d) : (s.step (.duplicate k))[s.length]? = some d := by
  have one : (s[k]?.bind (·.duplicate.toOption)).toList = [d] := by
    rw [held]
    show (h.duplicate.toOption).toList = [d]
    rw [made]
    rfl
  rw [Session.step, one, List.getElem?_concat_length]

/-- A duplicate answers as the original did, whatever happens after it was made. -/
theorem duplicate_lasts {s : Session R} {k : Nat} {h d : Handle R} (held : s[k]? = some h)
    (made : h.duplicate = .ok d) (later : List (Session.Event R)) :
    ∃ d', ((s.step (.duplicate k)).run later)[s.length]? = some d' ∧ d'.problem = h.problem := by
  obtain ⟨-, same⟩ := duplicate_eq_ok made
  have erased : d.erased = true := by rw [same]
  obtain ⟨d', held', problem⟩ := erased_run (getElem?_duplicated held made) erased later
  have original : d.problem = h.problem := by
    rw [same]
    rfl
  exact ⟨d', held', problem.trans original⟩

/-- What it means to duplicate the problem `h`, which is the one with number `k` of a session. -/
structure Duplicates (s : Session R) (k : Nat) (h : Handle R) : Prop where
  /-- The problem at the bottom decides. -/
  succeeds : (∃ d, h.duplicate = .ok d) ↔ h.problem.duplicable = .ok ()
  error : ∀ e, h.duplicate = .error e ↔ h.problem.duplicable = .error e
  /-- Duplicating layer by layer fails likewise, and otherwise gives the same counters. -/
  layered : (Layer.duplicate h.problem h.layers).map Layer.counters =
    h.duplicate.map fun d => Layer.counters d.layers
  /-- A call that goes through those layers one by one has the reply, and is counted, as a call of
  the duplicate. -/
  passed : ∀ d layers, h.duplicate = .ok d → Layer.duplicate h.problem h.layers = .ok layers →
    ∀ c, (Layer.pass h.problem c layers).1 = (d.consult (.call c)).1 ∧
      Layer.counters (Layer.pass h.problem c layers).2 =
        Layer.counters (d.consult (.call c)).2.layers
  constraints : ∀ d, h.duplicate = .ok d → d.problem.constraints = h.problem.constraints
  /-- Every reply, with what it leaves in the buffers, is the one that the original gives. -/
  replies : ∀ d, h.duplicate = .ok d → ∀ c, (d.consult (.call c)).1 = (h.consult (.call c)).1
  fresh : ∀ d, h.duplicate = .ok d →
    Layer.counters d.layers = (Layer.counters h.layers).map fun _ => .zero
  /-- All problems are held as before, the original with its counters among them. -/
  others : ∀ i, i < s.length → (s.step (.duplicate k))[i]? = s[i]?
  added : ∀ d, h.duplicate = .ok d → (s.step (.duplicate k))[s.length]? = some d
  /-- The duplicate goes on to answer as the original did when it was made. -/
  lasting : ∀ d, h.duplicate = .ok d → ∀ later, ∃ d',
    ((s.step (.duplicate k)).run later)[s.length]? = some d' ∧
      d'.problem.constraints = h.problem.constraints ∧
      ∀ c, (d'.consult (.call c)).1 = (h.consult (.call c)).1
  /-- Its counters stand still until it is called itself. -/
  untouched : ∀ d, h.duplicate = .ok d → ∀ later, (∀ deed, .act s.length deed ∉ later) →
    ((s.step (.duplicate k)).run later)[s.length]? = some d

/-- Whatever was done in a session before, a duplicate of its problem is faithful and fresh. -/
theorem duplicate_faithful (start : Session R) (earlier : List (Session.Event R)) (k : Nat)
    (h : Handle R) (held : (start.run earlier)[k]? = some h) :
    Duplicates (start.run earlier) k h := by
  generalize start.run earlier = s at held
  refine ⟨h.exists_duplicate_iff, h.duplicate_eq_error_iff, h.duplicate_layered,
    fun d layers => pass_duplicate, ?constraints, ?replies, ?fresh, ?others,
    fun d => getElem?_duplicated held, ?lasting, ?untouched⟩
  case constraints =>
    intro d made
    obtain ⟨-, rfl⟩ := duplicate_eq_ok made
    rfl
  case replies =>
    intro d made c
    obtain ⟨-, rfl⟩ := duplicate_eq_ok made
    rfl
  case fresh =>
    intro d made
    obtain ⟨-, rfl⟩ := duplicate_eq_ok made
    exact Layer.counters_fresh h.layers
  case others =>
    exact fun i within => Session.getElem?_step within nofun
  case lasting =>
    intro d made later
    obtain ⟨d', held', problem⟩ := duplicate_lasts held made later
    refine ⟨d', held', congrArg Problem.constraints problem, fun c => ?_⟩
    show d'.problem.answer c = h.problem.answer c
    rw [problem]
  case untouched =>
    intro d made later idle
    have added := getElem?_duplicated held made
    have within : s.length < (s.step (.duplicate k)).length :=
      (List.getElem?_eq_some_iff.1 added).1
    rw [Session.getElem?_run within idle, added]

/-- The cost `p x`, at the parameter 2. -/
def slope : Family Float :=
  ⟨⟨.unbounded 1, .unbounded 0⟩, [2.0], fun p =>
    { cost? := some fun x => .ok (Scalar.sum (List.zipWith (· * ·) p x)) }⟩

/-- The slope under two counters, called once and then given the parameter 5. -/
def steeper : Session Float :=
  Session.run [⟨.family slope, [.counted .zero, .passing, .counted .zero], false⟩]
    [.act 0 (.use (.call (.cost [1.0]))), .act 0 (.setParam [5.0])]

/-- The duplicate of the steeper slope still has the slope 5 when the original has the slope 7, and
its counters are at zero while those of the original are at one. -/
theorem duplicate_faithful_steeper :
    ∃ h d d', steeper[0]? = some h ∧ h.duplicate = .ok d ∧
      (Layer.counters h.layers).map (·.calls.get .cost) = [1, 1] ∧
      Layer.counters d.layers = [.zero, .zero] ∧
      ((steeper.step (.duplicate 0)).run [.act 0 (.setParam [7.0])])[1]? = some d' ∧
      ((d'.consult (.call (.cost [3.0]))).1 : Written Unit Float) = ⟨(), .ok 15.0⟩ := by
  obtain ⟨h, held⟩ : ∃ h, steeper[0]? = some h := ⟨_, rfl⟩
  have faithful := duplicate_faithful _ _ 0 h held
  have shown : h = ⟨.family { slope with param := [5.0] },
      [.counted (Counter.zero.tick .cost), .passing, .counted (Counter.zero.tick .cost)], false⟩ :=
    (Option.some.inj held).symm
  obtain ⟨d, made⟩ := faithful.succeeds.mpr (by rw [shown]; rfl)
  obtain ⟨d', later, -, replies⟩ := faithful.lasting d made [.act 0 (.setParam [7.0])]
  refine ⟨h, d, d', held, made, ?_, ?_, later, ?_⟩
  · rw [shown]
    rfl
  · rw [faithful.fresh d made, shown]
    rfl
  · rw [replies, shown]
    rfl

end Handle

end AugmentedLagrangian

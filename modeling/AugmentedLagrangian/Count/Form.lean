/- # AugmentedLagrangian.Count.Form — the stored form of a counter

A counter is stored as a record with the number of calls under each operation's key, and a further
record of the times, each of which is a record of whole seconds and nanoseconds.  On reading, the
fields of a record may come in any order, each of them once, or all of them in order as a row.
Those of a counter and of its times may stand amid others; a time has no others.  Nanoseconds of a
second and more carry.
-/
import AugmentedLagrangian.Count.Counter

namespace AugmentedLagrangian

set_option autoImplicit false

/-- A stored value. -/
inductive Form where
  | number (i : Int)
  | record (fields : List (String × Form))
  | row (items : List Form)
  /-- A value of any other kind. -/
  | other
  deriving Inhabited

/-- The key of the operation in stored counters. -/
def Operation.key : Operation → String
  | cost => "f"
  | costGrad => "grad_f"
  | costWithGrad => "f_grad_f"
  | costWithConstr => "f_g"
  | costWithGradConstr => "f_grad_f_g"
  | gradTerms => "grad_f_grad_g_prod"
  | constr => "g"
  | constrGradProd => "grad_g_prod"
  | constrGrad => "grad_gi"
  | lagrGrad => "grad_l"
  | lagrHessProd => "hess_l_prod"
  | lagrHess => "hess_l"
  | merit => "psi"
  | meritGrad => "grad_psi"
  | meritGradFrom => "grad_psi_from_y_hat"
  | meritWithGrad => "psi_grad_psi"

namespace Form

/-- The value of the field with this key, of which there must be one and no second. -/
def field? (key : String) (fields : List (String × Form)) : Option Form :=
  match fields.filter fun field => field.1 == key with
  | [(_, value)] => some value
  | _ => none

/-- The fields with these keys, in their order. -/
def fields? (keys : List String) : Form → Option (List Form)
  | record fields => keys.mapM fun key => field? key fields
  | row items => if items.length = keys.length then some items else none
  | _ => none

/-- The fields with these keys, in their order, of a record that has no others. -/
def allFields? (keys : List String) (form : Form) : Option (List Form) :=
  match form with
  | record fields =>
    if fields.all fun (key, _) => keys.contains key then form.fields? keys else none
  | _ => form.fields? keys

/-- A natural number below the limit. -/
def below? (limit : Nat) : Form → Option Nat
  | number i => if 0 ≤ i ∧ i < limit then some i.toNat else none
  | _ => none

def ofDuration (d : Duration) : Form :=
  record [("secs", number d.seconds), ("nanos", number d.subsecond)]

def duration? (form : Form) : Option Duration := do
  match ← form.allFields? ["secs", "nanos"] with
  | [secs, nanos] => Duration.of (← secs.below? secondsLimit) (← nanos.below? UInt32.size)
  | _ => none

/-- The chart with these values in the order of the operations. -/
def chart? {α : Type} (read : Form → Option α) (forms : List Form) : Option (Chart α) := do
  let values ← forms.mapM read
  if h : values.length = 16 then some ⟨⟨values.toArray, by simp [h]⟩⟩ else none

def times? (form : Form) : Option (Chart Duration) := do
  chart? duration? (← form.fields? (Operation.all.map Operation.key))

end Form

namespace Counter

/-- The stored form. -/
def toForm (c : Counter) : Form :=
  .record (Operation.all.map (fun op => (op.key, .number (c.calls.get op).toNat)) ++
    [("time", .record (Operation.all.map fun op => (op.key, .ofDuration (c.times.get op))))])

/-- The counter of a stored form. -/
def ofForm? (form : Form) : Option Counter := do
  let forms ← form.fields? (Operation.all.map Operation.key ++ ["time"])
  let calls ← Form.chart? (fun f => UInt64.ofNat <$> f.below? UInt64.size) (forms.take 16)
  let times ← (← forms[16]?).times?
  return ⟨calls, times⟩

/-- The stored counter in place of this one, if the form is one, and whether it is. -/
def load (c : Counter) (form : Form) : Counter × Bool :=
  match ofForm? form with
  | some stored => (stored, true)
  | none => (c, false)

end Counter

end AugmentedLagrangian

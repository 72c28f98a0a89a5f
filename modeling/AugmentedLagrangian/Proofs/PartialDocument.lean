/- # AugmentedLagrangian.Proofs.PartialDocument — documents that give some of the settings

A document may give any of the settings, in tables that may be missing, among keys that nothing
reads.  A `Part` says what may stand under a key: an item that stands for the value of a setting, or
a table with parts of its own.  `SolverSettings.parts` is the tree of all settings, and entries hold
it (`Holds`) if they give the chosen settings and none of the others.

Reading goes through the entries in their order, and where it stands is told by the keys that it has
passed: the structure so far has the chosen settings under these keys and the defaults elsewhere
(`Key.ofEntries_passes`).  In the end all keys are passed or missing, and what is missing was not
chosen, so what is read are the defaults with the chosen settings in their places
(`SolverSettings.read_eq_layer`).
-/
import AugmentedLagrangian.Proofs.SettingsText

namespace AugmentedLagrangian

set_option autoImplicit false

open Toml (Item Entries Key Kind)

/-! ## What a document says -/

/-- The value of a setting. -/
inductive Setting where
  | real (x : Float)
  | count (n : Nat)
  | truth (b : Bool)
  | duration (d : Duration)
  | criterion (v : StopCriterion)

/-- The item stands for the value.  Integers stand for the nearest reals too, and numbers for
durations of so many seconds. -/
inductive Setting.ToldBy : Setting → Item → Prop
  | real (x : Float) : ToldBy (.real x) (.real x)
  | whole (i : Int) : ToldBy (.real (Binary64.ofInt i)) (.whole i)
  | count (n : Nat) : ToldBy (.count n) (.whole n)
  | truth (b : Bool) : ToldBy (.truth b) (.truth b)
  | seconds {x : Float} {d : Duration} {item : Item} (number : ToldBy (.real x) item)
      (nearest : Duration.ofSeconds x = some d) : ToldBy (.duration d) item
  | criterion (v : StopCriterion) : ToldBy (.criterion v) (.text v.word)

/-- What is expected under a key. -/
structure Part where
  name : String
  /-- What an item there must be. -/
  told : Item → Prop
  /-- What must be so if there is none. -/
  absent : Prop

/-- Under the keys of the parts stand the items that are expected, and nothing is missing. -/
def Holds (parts : List Part) (es : Entries) : Prop :=
  ∀ part ∈ parts, (∀ item, (part.name, item) ∈ es → part.told item) ∧
    ((∀ item, (part.name, item) ∉ es) → part.absent)

/-- A setting under its key, there if it is chosen and has a value. -/
def Part.setting (given : List String → Bool) (name : String) (value : Option Setting) : Part where
  name
  told item := given [name] = true ∧ ∃ v, value = some v ∧ v.ToldBy item
  absent := given [name] = false

/-- A table, which may be missing if nothing in it is chosen. -/
def Part.table (name : String) (parts : List Part) : Part where
  name
  told item := ∃ origin sub, item = .table origin sub ∧ Holds parts sub
  absent := Holds parts []

/-- Settings under their keys. -/
def settings (given : List String → Bool) (leaves : List (String × Option Setting)) : List Part :=
  leaves.map fun leaf => .setting given leaf.1 leaf.2

def OuterSettings.leaves (s : OuterSettings Float) : List (String × Option Setting) :=
  [("epsilon", some (.real s.epsilon)),
    ("delta", some (.real s.delta)),
    ("penalty_update_factor", some (.real s.penaltyUpdateFactor)),
    ("initial_penalty", s.initialPenalty.map .real),
    ("initial_penalty_factor", some (.real s.initialPenaltyFactor)),
    ("initial_tolerance", some (.real s.initialTolerance)),
    ("tolerance_update_factor", some (.real s.toleranceUpdateFactor)),
    ("rel_penalty_increase_threshold", some (.real s.relPenaltyIncreaseThreshold)),
    ("max_multiplier", some (.real s.maxMultiplier)),
    ("max_penalty", some (.real s.maxPenalty)),
    ("min_penalty", some (.real s.minPenalty)),
    ("max_iter", some (.count s.maxIter)),
    ("max_time", some (.duration s.maxTime)),
    ("single_penalty_factor", some (.truth s.singlePenaltyFactor))]

def LipschitzSettings.leaves (s : LipschitzSettings Float) : List (String × Option Setting) :=
  [("l0", some (.real s.l0)),
    ("epsilon", some (.real s.epsilon)),
    ("delta", some (.real s.delta)),
    ("l_gamma_factor", some (.real s.lGammaFactor))]

def PanocSettings.leaves (s : PanocSettings Float) : List (String × Option Setting) :=
  [("max_iter", some (.count s.maxIter)),
    ("max_time", some (.duration s.maxTime)),
    ("tau_min", some (.real s.tauMin)),
    ("l_min", some (.real s.lMin)),
    ("l_max", some (.real s.lMax)),
    ("nonmonotone_linesearch", some (.count s.nonmonotoneLinesearch)),
    ("fpr_shortcut_accept_factor", some (.real s.fprShortcutAcceptFactor)),
    ("fpr_shortcut_history", some (.count s.fprShortcutHistory)),
    ("stop_crit", some (.criterion s.stopCrit)),
    ("update_lipschitz_in_linesearch", some (.truth s.updateLipschitzInLinesearch)),
    ("alternative_linesearch_cond", some (.truth s.alternativeLinesearchCond)),
    ("hessian_vec", some (.truth s.hessianVec)),
    ("hessian_vec_finite_differences", some (.truth s.hessianVecFiniteDifferences)),
    ("full_augmented_hessian", some (.truth s.fullAugmentedHessian)),
    ("quadratic_upperbound_tolerance_factor", some (.real s.quadraticUpperboundToleranceFactor)),
    ("print_interval", some (.count s.printInterval))]

def CbfgsSettings.leaves (s : CbfgsSettings Float) : List (String × Option Setting) :=
  [("alpha", some (.real s.alpha)), ("epsilon", some (.real s.epsilon))]

def LbfgsSettings.leaves (s : LbfgsSettings Float) : List (String × Option Setting) :=
  [("memory", some (.count s.memory))]

def PanocSettings.parts (given : List String → Bool) (s : PanocSettings Float) : List Part :=
  settings given s.leaves ++
    [.table "lipschitz" (settings (fun path => given ("lipschitz" :: path)) s.lipschitz.leaves)]

def LbfgsSettings.parts (given : List String → Bool) (s : LbfgsSettings Float) : List Part :=
  settings given s.leaves ++
    [.table "cbfgs" (settings (fun path => given ("cbfgs" :: path)) s.cbfgs.leaves)]

/-- All settings, of which those at the given paths are chosen. -/
def SolverSettings.parts (given : List String → Bool) (s : SolverSettings Float) : List Part :=
  [.table "alm" (settings (fun path => given ("alm" :: path)) s.outer.leaves),
    .table "panoc" (s.panoc.parts fun path => given ("panoc" :: path)),
    .table "lbfgs" (s.lbfgs.parts fun path => given ("lbfgs" :: path))]

/-! ## Chosen settings over others -/

section Layers

variable {R : Type} (given : List String → Bool)

/-- The settings of `s` at the given paths, and those of `base` elsewhere. -/
def OuterSettings.layer (s base : OuterSettings R) : OuterSettings R where
  epsilon := if given ["epsilon"] then s.epsilon else base.epsilon
  delta := if given ["delta"] then s.delta else base.delta
  penaltyUpdateFactor :=
    if given ["penalty_update_factor"] then s.penaltyUpdateFactor else base.penaltyUpdateFactor
  initialPenalty := if given ["initial_penalty"] then s.initialPenalty else base.initialPenalty
  initialPenaltyFactor :=
    if given ["initial_penalty_factor"] then s.initialPenaltyFactor else base.initialPenaltyFactor
  initialTolerance :=
    if given ["initial_tolerance"] then s.initialTolerance else base.initialTolerance
  toleranceUpdateFactor :=
    if given ["tolerance_update_factor"] then s.toleranceUpdateFactor
    else base.toleranceUpdateFactor
  relPenaltyIncreaseThreshold :=
    if given ["rel_penalty_increase_threshold"] then s.relPenaltyIncreaseThreshold
    else base.relPenaltyIncreaseThreshold
  maxMultiplier := if given ["max_multiplier"] then s.maxMultiplier else base.maxMultiplier
  maxPenalty := if given ["max_penalty"] then s.maxPenalty else base.maxPenalty
  minPenalty := if given ["min_penalty"] then s.minPenalty else base.minPenalty
  maxIter := if given ["max_iter"] then s.maxIter else base.maxIter
  maxTime := if given ["max_time"] then s.maxTime else base.maxTime
  singlePenaltyFactor :=
    if given ["single_penalty_factor"] then s.singlePenaltyFactor else base.singlePenaltyFactor

def LipschitzSettings.layer (s base : LipschitzSettings R) : LipschitzSettings R where
  l0 := if given ["l0"] then s.l0 else base.l0
  epsilon := if given ["epsilon"] then s.epsilon else base.epsilon
  delta := if given ["delta"] then s.delta else base.delta
  lGammaFactor := if given ["l_gamma_factor"] then s.lGammaFactor else base.lGammaFactor

def PanocSettings.layer (s base : PanocSettings R) : PanocSettings R where
  maxIter := if given ["max_iter"] then s.maxIter else base.maxIter
  maxTime := if given ["max_time"] then s.maxTime else base.maxTime
  tauMin := if given ["tau_min"] then s.tauMin else base.tauMin
  lMin := if given ["l_min"] then s.lMin else base.lMin
  lMax := if given ["l_max"] then s.lMax else base.lMax
  nonmonotoneLinesearch :=
    if given ["nonmonotone_linesearch"] then s.nonmonotoneLinesearch
    else base.nonmonotoneLinesearch
  fprShortcutAcceptFactor :=
    if given ["fpr_shortcut_accept_factor"] then s.fprShortcutAcceptFactor
    else base.fprShortcutAcceptFactor
  fprShortcutHistory :=
    if given ["fpr_shortcut_history"] then s.fprShortcutHistory else base.fprShortcutHistory
  stopCrit := if given ["stop_crit"] then s.stopCrit else base.stopCrit
  updateLipschitzInLinesearch :=
    if given ["update_lipschitz_in_linesearch"] then s.updateLipschitzInLinesearch
    else base.updateLipschitzInLinesearch
  alternativeLinesearchCond :=
    if given ["alternative_linesearch_cond"] then s.alternativeLinesearchCond
    else base.alternativeLinesearchCond
  hessianVec := if given ["hessian_vec"] then s.hessianVec else base.hessianVec
  hessianVecFiniteDifferences :=
    if given ["hessian_vec_finite_differences"] then s.hessianVecFiniteDifferences
    else base.hessianVecFiniteDifferences
  fullAugmentedHessian :=
    if given ["full_augmented_hessian"] then s.fullAugmentedHessian else base.fullAugmentedHessian
  quadraticUpperboundToleranceFactor :=
    if given ["quadratic_upperbound_tolerance_factor"] then s.quadraticUpperboundToleranceFactor
    else base.quadraticUpperboundToleranceFactor
  printInterval := if given ["print_interval"] then s.printInterval else base.printInterval
  lipschitz := s.lipschitz.layer (fun path => given ("lipschitz" :: path)) base.lipschitz

def CbfgsSettings.layer (s base : CbfgsSettings R) : CbfgsSettings R where
  alpha := if given ["alpha"] then s.alpha else base.alpha
  epsilon := if given ["epsilon"] then s.epsilon else base.epsilon

def LbfgsSettings.layer (s base : LbfgsSettings R) : LbfgsSettings R where
  memory := if given ["memory"] then s.memory else base.memory
  cbfgs := s.cbfgs.layer (fun path => given ("cbfgs" :: path)) base.cbfgs

def SolverSettings.layer (s base : SolverSettings R) : SolverSettings R where
  outer := s.outer.layer (fun path => given ("alm" :: path)) base.outer
  panoc := s.panoc.layer (fun path => given ("panoc" :: path)) base.panoc
  lbfgs := s.lbfgs.layer (fun path => given ("lbfgs" :: path)) base.lbfgs

/-! Where nothing is given, nothing changes. -/

@[simp] theorem OuterSettings.layer_none (s base : OuterSettings R) :
    s.layer (fun _ => false) base = base := rfl

@[simp] theorem LipschitzSettings.layer_none (s base : LipschitzSettings R) :
    s.layer (fun _ => false) base = base := rfl

@[simp] theorem PanocSettings.layer_none (s base : PanocSettings R) :
    s.layer (fun _ => false) base = base := rfl

@[simp] theorem CbfgsSettings.layer_none (s base : CbfgsSettings R) :
    s.layer (fun _ => false) base = base := rfl

@[simp] theorem LbfgsSettings.layer_none (s base : LbfgsSettings R) :
    s.layer (fun _ => false) base = base := rfl

@[simp] theorem SolverSettings.layer_none (s base : SolverSettings R) :
    s.layer (fun _ => false) base = base := rfl

end Layers

/-! ## Reading key by key -/

/-- The given paths below keys that have been passed. -/
def within (passed : String → Bool) (given : List String → Bool) : List String → Bool
  | [] => false
  | key :: path => passed key && given (key :: path)

/-- One more key has been passed. -/
def also (name : String) (passed : String → Bool) : String → Bool := fun key =>
  key == name || passed key

/-- There is a part of this name. -/
def Part.among (parts : List Part) : String → Bool := fun key =>
  parts.any fun part => key == part.name

theorem Part.among_name {parts : List Part} {part : Part} (mem : part ∈ parts) :
    among parts part.name = true :=
  List.any_eq_true.2 ⟨part, mem, beq_self_eq_true _⟩

namespace Toml

variable {E S α : Type} {layer : (String → Bool) → S} {given : List String → Bool}

/-- The key is for the part: it puts what stands there in its place, and changes nothing if nothing
does. -/
structure Key.Places (layer : (String → Bool) → S) (key : Key E S) (part : Part) : Prop where
  name : key.name = part.name
  replace : ∀ item, part.told item →
    ∀ passed, key.replace item (layer passed) = .ok (layer (also part.name passed))
  absent : part.absent → ∀ passed, layer (also part.name passed) = layer passed

namespace Key

/-- A key that is found is for a part. -/
theorem exists_part {keys : List (Key E S)} {parts : List Part}
    (places : List.Forall₂ (Places layer) keys parts) {name : String} {key : Key E S}
    (found : keys.find? (fun key => key.name = name) = some key) :
    ∃ part ∈ parts, Places layer key part ∧ part.name = name := by
  induction places with
  | nil => cases found
  | @cons first part keys parts here _ ih =>
      by_cases same : first.name = name
      · rw [List.find?_cons_of_pos (by simpa using same)] at found
        cases found
        exact ⟨part, List.mem_cons_self, here, here.name ▸ same⟩
      · rw [List.find?_cons_of_neg (by simpa using same)] at found
        obtain ⟨part, mem, placed⟩ := ih found
        exact ⟨part, List.mem_cons_of_mem _ mem, placed⟩

/-- A key that is not found is for no part. -/
theorem among_eq_false {keys : List (Key E S)} {parts : List Part}
    (places : List.Forall₂ (Places layer) keys parts) {name : String}
    (unknown : keys.find? (fun key => key.name = name) = none) : Part.among parts name = false := by
  induction places with
  | nil => rfl
  | @cons first part keys parts here _ ih =>
      by_cases same : first.name = name
      · rw [List.find?_cons_of_pos (by simpa using same)] at unknown
        cases unknown
      · rw [List.find?_cons_of_neg (by simpa using same)] at unknown
        have rest := ih unknown
        have other : name ≠ part.name := fun eq => same (here.name.trans eq.symm)
        simpa [Part.among, other] using rest

/-- The entries pass the keys under which there is something, if it is what is expected. -/
theorem ofEntries_passes {keys : List (Key E S)} {parts : List Part}
    (places : List.Forall₂ (Places layer) keys parts) {es : Entries}
    (told : ∀ part ∈ parts, ∀ item, (part.name, item) ∈ es → part.told item)
    (passed : String → Bool) :
    ofEntries keys es (layer passed) =
      .ok (layer fun key => passed key || (Part.among parts key && es.any (key == ·.1))) := by
  induction es generalizing passed with
  | nil => simp [ofEntries]
  | cons e es ih =>
      obtain ⟨name, item⟩ := e
      have rest := ih fun part mem item later => told part mem item (List.mem_cons_of_mem _ later)
      rw [ofEntries]
      cases found : keys.find? fun key => key.name = name with
      | none =>
          have unknown := among_eq_false places found
          simp only [rest passed]
          congr 2
          funext key
          by_cases same : key = name
          · simp [same, unknown]
          · simp [beq_eq_false_iff_ne.2 same]
      | some key =>
          obtain ⟨part, mem, placed, rfl⟩ := exists_part places found
          have replaced := placed.replace item (told part mem item List.mem_cons_self) passed
          simp only [replaced]
          show ofEntries keys es (layer (also part.name passed)) = _
          rw [rest]
          congr 2
          funext key
          by_cases same : key = part.name
          · simp [same, also, Part.among_name mem]
          · simp [beq_eq_false_iff_ne.2 same, also]

/-- Parts under which there is nothing make no difference. -/
theorem layer_absent {keys : List (Key E S)} {parts : List Part}
    (places : List.Forall₂ (Places layer) keys parts) (passed : String → Bool)
    (absent : ∀ part ∈ parts, passed part.name = false → part.absent) :
    layer (fun key => passed key || Part.among parts key) = layer passed := by
  induction places with
  | nil => simp [Part.among]
  | @cons first part keys parts here _ ih =>
      have rest := ih fun part mem => absent part (List.mem_cons_of_mem _ mem)
      have more : (fun key => passed key || Part.among (part :: parts) key) =
          also part.name fun key => passed key || Part.among parts key := by
        funext key
        simp [also, Part.among, Bool.or_left_comm]
      rw [more, ← rest]
      cases before : passed part.name with
      | true =>
          congr 1
          funext key
          by_cases same : key = part.name <;> simp [also, same, before]
      | false => exact here.absent (absent part List.mem_cons_self before) _

/-- Entries that hold the parts are read as the layer of all keys. -/
theorem ofEntries_layer (layer : (String → Bool) → S) {keys : List (Key E S)} {parts : List Part}
    {base whole : S} (places : List.Forall₂ (Places layer) keys parts)
    (first : layer (fun _ => false) = base) (last : layer (Part.among parts) = whole)
    {es : Entries} (holds : Holds parts es) :
    ofEntries keys es base = .ok whole := by
  rw [← first, ofEntries_passes places fun part mem => (holds part mem).1, ← last,
    ← layer_absent places]
  · congr 2
    funext key
    cases Part.among parts key <;> simp
  · intro part mem missing
    refine (holds part mem).2 fun item there => ?_
    have seen : (es.any fun e => part.name == e.1) = true :=
      List.any_eq_true.2 ⟨_, there, beq_self_eq_true _⟩
    simp [Part.among_name mem, seen] at missing

end Key

/-! ## Keys of settings -/

theorem Kind.take_real {x : Float} {item : Item} (told : Setting.ToldBy (.real x) item) :
    (real : Kind E Float).take item = pure x := by
  cases told <;> rfl

/-- One more key that has been passed puts the setting in its place, if it is chosen. -/
def Puts (layer : (String → Bool) → S) (given : List String → Bool) (name : String) (put : S → S) :
    Prop :=
  ∀ passed, layer (also name passed) = if given [name] then put (layer passed) else layer passed

namespace Key.Places

variable {name : String}

/-- The key of a setting puts its value in its place. -/
theorem setting {kind : Kind E α} {get : S → α} {set : α → S → S} {value : Option Setting} {a : α}
    (takes : ∀ v item, value = some v → v.ToldBy item → kind.take item = .ok a)
    (step : Puts layer given name (set a)) :
    Places layer (kind.key name get set) (.setting given name value) where
  name := rfl
  replace := by
    rintro item ⟨chosen, v, value, told⟩ passed
    show (do return set (← kind.take item) (layer passed) : Except (ReadError E) S) =
      .ok (layer (also name passed))
    rw [takes v item value told, step, if_pos chosen]
    rfl
  absent out passed := by
    have out : ¬given [name] = true := by rw [out]; decide
    exact (step passed).trans (if_neg out)

theorem real {get : S → Float} {set : Float → S → S} {x : Float}
    (step : Puts layer given name (set x)) :
    Places layer ((Kind.real : Kind E Float).key name get set)
      (.setting given name (some (.real x))) := by
  refine setting ?_ step
  rintro _ item ⟨⟩ told
  exact Kind.take_real told

theorem optional {get : S → Option Float} {set : Option Float → S → S} {x : Option Float}
    (step : Puts layer given name (set x)) :
    Places layer ((Kind.real.optional : Kind E (Option Float)).key name get set)
      (.setting given name (x.map .real)) := by
  refine setting ?_ step
  rintro v item value told
  obtain ⟨x, rfl, rfl⟩ := Option.map_eq_some_iff.1 value
  show some <$> (Kind.real : Kind E Float).take item = _
  rw [Kind.take_real told]
  rfl

theorem count {get : S → Nat} {set : Nat → S → S} {n : Nat}
    (step : Puts layer given name (set n)) :
    Places layer ((Kind.count : Kind E Nat).key name get set)
      (.setting given name (some (.count n))) := by
  refine setting ?_ step
  rintro _ item ⟨⟩ told
  cases told
  simp [Kind.count]

theorem truth {get : S → Bool} {set : Bool → S → S} {b : Bool}
    (step : Puts layer given name (set b)) :
    Places layer ((Kind.truth : Kind E Bool).key name get set)
      (.setting given name (some (.truth b))) := by
  refine setting ?_ step
  rintro _ item ⟨⟩ told
  cases told
  rfl

theorem seconds {get : S → Duration} {set : Duration → S → S} {d : Duration}
    (step : Puts layer given name (set d)) :
    Places layer ((Kind.seconds : Kind E Duration).key name get set)
      (.setting given name (some (.duration d))) := by
  refine setting ?_ step
  rintro _ item ⟨⟩ told
  cases told with
  | seconds number nearest =>
      simp only [Kind.seconds, Kind.take_real number, pure_bind, nearest]
      rfl

theorem criterion {get : S → StopCriterion} {set : StopCriterion → S → S} {v : StopCriterion}
    (step : Puts layer given name (set v)) :
    Places layer
      ((Kind.choice StopCriterion.all StopCriterion.word : Kind E StopCriterion).key name get set)
      (.setting given name (some (.criterion v))) := by
  refine setting ?_ step
  rintro _ item ⟨⟩ told
  cases told
  cases v <;> rfl

/-- The key of a table puts the structure that is read of it in its place. -/
theorem table {T : Type} {keys : List (Key E T)} {base inner : T} {parts : List Part}
    {get : S → T} {set : T → S → S}
    (reads : ∀ {es}, Holds parts es → ofEntries keys es base = .ok inner)
    (put : ∀ passed, layer (also name passed) = set inner (layer passed))
    (kept : inner = base → ∀ passed, layer (also name passed) = layer passed) :
    Places layer ((Kind.group keys base).key name get set) (.table name parts) where
  name := rfl
  replace := by
    rintro item ⟨origin, sub, rfl, holds⟩ passed
    show (do return set (← ofEntries keys sub base) (layer passed) : Except (ReadError E) S) =
      .ok (layer (also name passed))
    rw [reads holds, put]
    rfl
  absent holds := by
    have same : Except.ok base = (.ok inner : Except (ReadError E) T) := reads holds
    exact kept (Except.ok.inj same).symm

end Key.Places

end Toml

/-! ## The structures

In each, the entries that hold the chosen settings are read as these over the defaults.  The keys
are matched to the parts one by one; that a key puts one setting in its place and leaves the others
is seen field by field. -/

@[simp] theorem within_none (given : List String → Bool) :
    within (fun _ => false) given = fun _ => false := by
  funext path
  cases path <;> rfl

section Structures

variable {E : Type} {given : List String → Bool} {es : Entries}

theorem LipschitzSettings.ofEntries_eq {s : LipschitzSettings Float}
    (holds : Holds (settings given s.leaves) es) :
    Key.ofEntries (keys (E := E)) es .default = .ok (s.layer given .default) := by
  refine Key.ofEntries_layer (fun passed => s.layer (within passed given) .default)
    ?_ (by simp) ?_ holds
  · simp only [keys, settings, leaves, List.map, List.forall₂_cons]
    refine ⟨.real ?_, .real ?_, .real ?_, .real ?_, .nil⟩
    all_goals
      intro passed
      split <;> rename_i chosen <;> simp [layer, within, also, chosen]
  · simp [layer, within, Part.among, settings, leaves, Part.setting]

theorem CbfgsSettings.ofEntries_eq {s : CbfgsSettings Float}
    (holds : Holds (settings given s.leaves) es) :
    Key.ofEntries (keys (E := E)) es .default = .ok (s.layer given .default) := by
  refine Key.ofEntries_layer (fun passed => s.layer (within passed given) .default)
    ?_ (by simp) ?_ holds
  · simp only [keys, settings, leaves, List.map, List.forall₂_cons]
    refine ⟨.real ?_, .real ?_, .nil⟩
    all_goals
      intro passed
      split <;> rename_i chosen <;> simp [layer, within, also, chosen]
  · simp [layer, within, Part.among, settings, leaves, Part.setting]

theorem OuterSettings.ofEntries_eq {s : OuterSettings Float}
    (holds : Holds (settings given s.leaves) es) :
    Key.ofEntries (keys (E := E)) es .default = .ok (s.layer given .default) := by
  refine Key.ofEntries_layer (fun passed => s.layer (within passed given) .default)
    ?_ (by simp) ?_ holds
  · simp only [keys, settings, leaves, List.map, List.forall₂_cons]
    refine ⟨.real ?_, .real ?_, .real ?_, .optional ?_, .real ?_, .real ?_, .real ?_, .real ?_,
      .real ?_, .real ?_, .real ?_, .count ?_, .seconds ?_, .truth ?_, .nil⟩
    all_goals
      intro passed
      split <;> rename_i chosen <;> simp [layer, within, also, chosen]
  · simp [layer, within, Part.among, settings, leaves, Part.setting]

theorem PanocSettings.ofEntries_eq {s : PanocSettings Float} (holds : Holds (s.parts given) es) :
    Key.ofEntries (keys (E := E)) es .default = .ok (s.layer given .default) := by
  refine Key.ofEntries_layer (fun passed => s.layer (within passed given) .default)
    ?_ (by simp) ?_ holds
  · simp only [keys, parts, settings, leaves, List.map, List.cons_append, List.nil_append,
      List.forall₂_cons]
    refine ⟨.count ?_, .seconds ?_, .real ?_, .real ?_, .real ?_, .count ?_, .real ?_, .count ?_,
      .criterion ?_, .truth ?_, .truth ?_, .truth ?_, .truth ?_, .truth ?_, .real ?_, .count ?_,
      .table LipschitzSettings.ofEntries_eq ?put ?kept, .nil⟩
    case put =>
      intro passed
      simp [layer, within, also, default]
    case kept =>
      intro same passed
      cases before : passed "lipschitz" <;>
        simp [layer, within, also, default, before, same]
    all_goals
      intro passed
      split <;> rename_i chosen <;> simp [layer, within, also, chosen]
  · simp [layer, within, Part.among, parts, settings, leaves, Part.setting, Part.table]

theorem LbfgsSettings.ofEntries_eq {s : LbfgsSettings Float} (holds : Holds (s.parts given) es) :
    Key.ofEntries (keys (E := E)) es .default = .ok (s.layer given .default) := by
  refine Key.ofEntries_layer (fun passed => s.layer (within passed given) .default)
    ?_ (by simp) ?_ holds
  · simp only [keys, parts, settings, leaves, List.map, List.cons_append, List.nil_append,
      List.forall₂_cons]
    refine ⟨.count ?_, .table CbfgsSettings.ofEntries_eq ?put ?kept, .nil⟩
    case put =>
      intro passed
      simp [layer, within, also, default]
    case kept =>
      intro same passed
      cases before : passed "cbfgs" <;>
        simp [layer, within, also, default, before, same]
    all_goals
      intro passed
      split <;> rename_i chosen <;> simp [layer, within, also, chosen]
  · simp [layer, within, Part.among, parts, settings, leaves, Part.setting, Part.table]

theorem SolverSettings.ofEntries_eq {s : SolverSettings Float} (holds : Holds (s.parts given) es) :
    Key.ofEntries (keys (E := E)) es .default = .ok (s.layer given .default) := by
  refine Key.ofEntries_layer (fun passed => s.layer (within passed given) .default)
    ?_ (by simp) ?_ holds
  · simp only [keys, parts, List.forall₂_cons]
    refine ⟨.table OuterSettings.ofEntries_eq ?_ ?_, .table PanocSettings.ofEntries_eq ?_ ?_,
      .table LbfgsSettings.ofEntries_eq ?_ ?_, .nil⟩
    · intro passed
      simp [layer, within, also, default]
    · intro same passed
      cases before : passed "alm" <;> simp [layer, within, also, default, before, same]
    · intro passed
      simp [layer, within, also, default]
    · intro same passed
      cases before : passed "panoc" <;> simp [layer, within, also, default, before, same]
    · intro passed
      simp [layer, within, also, default]
    · intro same passed
      cases before : passed "lbfgs" <;> simp [layer, within, also, default, before, same]
  · simp [layer, within, Part.among, parts, Part.table]

end Structures

/-! ## Documents -/

namespace SolverSettings

variable {given : List String → Bool} {c : SolverSettings Float} {text : String}

/-- The text is a document that gives the settings of `c` at the given paths and no others. -/
def GivenBy (given : List String → Bool) (c : SolverSettings Float) (text : String) : Prop :=
  ∃ es, Toml.document? text = some es ∧ Holds (c.parts given) es

/-- What is read are the defaults with the given settings in their places. -/
theorem read_eq_layer {E : Type} (gives : c.GivenBy given text) :
    (kind (E := E)).read text = .ok (c.layer given .default) := by
  obtain ⟨es, document, holds⟩ := gives
  rw [Kind.read, document]
  exact ofEntries_eq holds

/-- What is read and not admissible is refused. -/
theorem ofText_eq_refused {s : SolverSettings Float} {v : Violation}
    (read : (kind (E := Violation)).read text = .ok s)
    (violated : Requirement.check s.requirements = .error v) :
    ofText text = .error (.refused v) := by
  rw [ofText, read, show Except.ok s = (pure s : Except (ReadError Violation) _) from rfl,
    pure_bind, violated]
  rfl

end SolverSettings

end AugmentedLagrangian

/- # AugmentedLagrangian.Toml.Record — structures as tables

A `Kind` says how values of a type are taken from an item of a document and given as one.  A `Key` is
a field of a structure: its name, its kind, and how it is read from the structure and replaced in
it.  A list of keys is all that is needed to go from tables to structures and back: `Key.record`
starts from a structure and replaces what the table gives, so what it leaves out keeps its value;
`Key.entries` gives the table of a structure.

A structure may also be given as a list of its fields in order.  Keys of the table that are not
listed do not matter.
-/
import AugmentedLagrangian.Duration
import AugmentedLagrangian.Toml.Document
import AugmentedLagrangian.Toml.Write

namespace AugmentedLagrangian

set_option autoImplicit false

/-- Why there is no value to be read. -/
inductive ReadError (E : Type) where
  /-- There is nothing to read, or it is no text. -/
  | unreadable
  /-- The text is no document, or an item in it is of the wrong kind. -/
  | malformed
  /-- The value is refused, for a reason of its own. -/
  | refused (reason : E)

namespace Toml

/-- How values are taken from items and given as items. -/
structure Kind (E α : Type) where
  take : Item → Except (ReadError E) α
  /-- The item, unless the value is left out. -/
  give : α → Option Item

/-- A field of a structure. -/
structure Key (E S : Type) where
  name : String
  /-- The structure with the field taken from an item. -/
  replace : Item → S → Except (ReadError E) S
  /-- The field's item, unless it is left out. -/
  give : S → Option Item

variable {E S α : Type}

/-! ## Structures -/

/-- The key for a field of this kind. -/
def Kind.key (kind : Kind E α) (name : String) (get : S → α) (set : α → S → S) : Key E S where
  name
  replace item s := do return set (← kind.take item) s
  give s := kind.give (get s)

namespace Key

/-- The structure with the fields that the entries give, one after the other. -/
def ofEntries (keys : List (Key E S)) : Entries → S → Except (ReadError E) S
  | [], s => .ok s
  | (name, item) :: es, s =>
    match keys.find? fun key => key.name = name with
    | some key => do ofEntries keys es (← key.replace item s)
    | none => ofEntries keys es s

/-- The structure with its first fields taken from the items. -/
def ofItems : List (Key E S) → List Item → S → Except (ReadError E) S
  | key :: keys, item :: items, s => do ofItems keys items (← key.replace item s)
  | _, _, s => .ok s

/-- The structure with the fields that an item gives. -/
def record (keys : List (Key E S)) (s : S) : Item → Except (ReadError E) S
  | .table _ es => ofEntries keys es s
  | .list items => ofItems keys items s
  | .tables rows => ofItems keys (rows.map fun es => .table .headed es) s
  | .moment => .ok s
  | _ => .error .malformed

/-- The entries of a structure. -/
def entries (keys : List (Key E S)) (s : S) : Entries :=
  keys.filterMap fun key => (key.name, ·) <$> key.give s

end Key

/-! ## Kinds -/

namespace Kind

/-- Structures, of which missing fields are those of `base`. -/
def group (keys : List (Key E S)) (base : S) : Kind E S where
  take := Key.record keys base
  give s := some (.table .headed (Key.entries keys s))

/-- Reals; integers are taken as the nearest real. -/
def real : Kind E Float where
  take
    | .real x => .ok x
    | .whole i => .ok (Binary64.ofInt i)
    | _ => .error .malformed
  give x := some (.real x)

/-- Natural numbers. -/
def count : Kind E Nat where
  take
    | .whole i => if 0 ≤ i then .ok i.toNat else .error .malformed
    | _ => .error .malformed
  give n := some (.whole n)

def truth : Kind E Bool where
  take
    | .truth b => .ok b
    | _ => .error .malformed
  give b := some (.truth b)

/-- Durations as numbers of seconds. -/
def seconds : Kind E Duration where
  take item := do
    match Duration.ofSeconds (← real.take item) with
    | some d => return d
    | none => throw .malformed
  give d := some (.real d.toSeconds)

/-- Values that may be absent, and are left out then. -/
def optional (kind : Kind E α) : Kind E (Option α) where
  take item := some <$> kind.take item
  give v := v.bind kind.give

/-- Lists of values that are not left out. -/
def list (kind : Kind E α) : Kind E (List α) where
  take
    | .list items => items.mapM kind.take
    | _ => .error .malformed
  give vs := some (.list (vs.filterMap kind.give))

/-- Whether the item holds nothing. -/
def isHollow : Item → Bool
  | .table _ es => es.isEmpty
  | .list items => items.isEmpty
  | .tables rows => rows.isEmpty
  | _ => false

/-- The word that an item chooses: a text, or a table with that one key and nothing under it. -/
def word? : Item → Option String
  | .text s => some s
  | .table _ [(key, item)] => if isHollow item then some key else none
  | _ => none

/-- One of finitely many values, by their words. -/
def choice (values : List α) (word : α → String) : Kind E α where
  take item :=
    match (word? item).bind fun w => values.find? fun v => word v = w with
    | some v => .ok v
    | none => .error .malformed
  give v := some (.text (word v))

end Kind

/-- The value of a document. -/
def Kind.read (kind : Kind E α) (text : String) : Except (ReadError E) α :=
  match document? text with
  | some es => kind.take (.table .headed es)
  | none => .error .malformed

/-- The document of a value, if it can be written. -/
def Kind.write? (kind : Kind E α) (value : α) : Option String :=
  match kind.give value with
  | some (.table _ es) => Toml.write? es
  | _ => none

end Toml

end AugmentedLagrangian

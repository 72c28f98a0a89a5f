/- # AugmentedLagrangian.Toml.Item — the values of a TOML document

A document is a table, and a table is a list of keys with their items in the order in which they
first appear.  How a table came to be decides what may still be added to it, so it is kept with the
table: whether a header names it, a longer header implies it, a dotted key made it, or it stands
inline and is complete.
-/
namespace AugmentedLagrangian.Toml

set_option autoImplicit false

/-- How a table came to be. -/
inductive Origin where
  | headed
  | implied
  | dotted
  | inlined
  deriving DecidableEq, Repr

/-- A value of a document. -/
inductive Item where
  | text (s : String)
  | whole (i : Int)
  | real (x : Float)
  | truth (b : Bool)
  /-- A date, a time of day, or both. -/
  | moment
  | list (items : List Item)
  | table (origin : Origin) (entries : List (String × Item))
  /-- The tables under a repeated header. -/
  | tables (rows : List (List (String × Item)))

abbrev Entries : Type := List (String × Item)

/-- Integers below this are integers of a document, and so is its negative. -/
def wholeLimit : Nat :=
  0x8000000000000000

namespace Entries

def find? (es : Entries) (key : String) : Option Item :=
  es.lookup key

/-- The entries with another item under the key, which is there. -/
def replace (key : String) (item : Item) (es : Entries) : Entries :=
  es.map fun (k, old) => if k = key then (k, item) else (k, old)

/-- The entries without the key. -/
def remove (key : String) (es : Entries) : Entries :=
  es.filter fun (k, _) => k ≠ key

/-- The entries with a new key at the end; a key is given once. -/
def insertNew (key : String) (item : Item) (es : Entries) : Option Entries :=
  match es.find? key with
  | none => some (es ++ [(key, item)])
  | some _ => none

/-- Edits the table at a path below a table, making the tables on the way that are missing.  A path
leads through tables that are not complete, and to the last table of a repeated header; a dotted key
leads through no table that a header names. -/
def alterAt (making : Origin) (edit : Origin → Entries → Option Entries) :
    List String → Origin → Entries → Option Entries
  | [], origin, es => edit origin es
  | key :: path, _, es =>
    match es.find? key with
    | none => do
      let sub ← alterAt making edit path making []
      return es ++ [(key, .table making sub)]
    | some (.table origin sub) =>
      if origin = .inlined ∨ (making = .dotted ∧ origin = .headed) then none
      else do
        let sub ← alterAt making edit path origin sub
        return es.replace key (.table origin sub)
    | some (.tables rows) => do
      let sub ← alterAt making edit path .headed (rows.getLast?.getD [])
      return es.replace key (.tables (rows.dropLast ++ [sub]))
    | some _ => none

/-- Adds a value under a dotted key.  A dotted key adds to tables that dotted keys made, a plain one
to others. -/
def insertDotted (path : List String) (key : String) (item : Item) (origin : Origin)
    (es : Entries) : Option Entries :=
  alterAt .dotted
    (fun origin es =>
      if decide (origin = .dotted) = path.isEmpty then none else es.insertNew key item)
    path origin es

/-- Names a table by a header: a new one, or one that longer headers have implied. -/
def openTable (path : List String) (key : String) (root : Entries) : Option Entries :=
  alterAt .implied
    (fun _ es =>
      match es.find? key with
      | none => some (es ++ [(key, .table .headed [])])
      | some (.table .implied sub) => some (es.remove key ++ [(key, .table .headed sub)])
      | some _ => none)
    path .headed root

/-- Adds a table by a repeated header. -/
def openRow (path : List String) (key : String) (root : Entries) : Option Entries :=
  alterAt .implied
    (fun _ es =>
      match es.find? key with
      | none => some (es ++ [(key, .tables [[]])])
      | some (.tables rows) => some (es.replace key (.tables (rows ++ [[]])))
      | some _ => none)
    path .headed root

end Entries

end AugmentedLagrangian.Toml

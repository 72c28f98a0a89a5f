/- # AugmentedLagrangian.Toml.Document — what a text says line by line

A document is read statement by statement.  A header opens a table, or one more of the tables under
a repeated header; a key with its value goes into the table that was opened last.  Every statement
ends with its line, and lines may be left empty but for comments.
-/
import AugmentedLagrangian.Toml.Value

namespace AugmentedLagrangian.Toml

set_option autoImplicit false

/-- What has been read of a document, and the path of the table that was opened last. -/
structure Draft where
  root : Entries := []
  path : List String := []

namespace Draft

/-- Puts a value under a dotted key of the table that was opened last. -/
def insert (d : Draft) (parts : List String) (item : Item) : Option Draft := do
  let (path, last) := splitKey parts
  let root ← d.root.alterAt .implied (fun origin es => es.insertDotted path last item origin) d.path
    .headed
  return { d with root }

/-- Opens a table. -/
def openTable (d : Draft) (parts : List String) : Option Draft := do
  let (path, last) := splitKey parts
  return ⟨← d.root.openTable path last, parts⟩

/-- Opens one more of the tables under a header. -/
def openRow (d : Draft) (parts : List String) : Option Draft := do
  let (path, last) := splitKey parts
  return ⟨← d.root.openRow path last, parts⟩

end Draft

/-- Reads a statement, and the rest of its line. -/
def statement (d : Draft) : Reader Draft
  | '[' :: '[' :: s => do
    let (parts, s) ← key depthLimit s
    let s ← char? ']' s
    let s ← char? ']' s
    return (← d.openRow parts, ← lineEnd? s)
  | '[' :: s => do
    let (parts, s) ← key depthLimit s
    let s ← char? ']' s
    return (← d.openTable parts, ← lineEnd? s)
  | s => do
    let ((parts, item), s) ← pair (value depthLimit) s
    return (← d.insert parts item, ← lineEnd? s)

/-- The rest of a document, after a draft. -/
def statements : (fuel : Nat) → Draft → List Char → Option Entries
  | 0, _, _ => none
  | fuel + 1, d, s =>
    let s := skipLines s
    if s.isEmpty then some d.root
    else do
      let (d, s) ← statement d s
      statements fuel d s

/-- The document that a text is; a byte order mark in front does not count. -/
def document? (text : String) : Option Entries :=
  let s :=
    match text.toList with
    | '\ufeff' :: s => s
    | s => s
  statements (s.length + 1) {} s

end AugmentedLagrangian.Toml

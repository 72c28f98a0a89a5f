/- # AugmentedLagrangian.Toml.Value — values

A value is a string, a number, a moment, a truth value, a list or an inline table.  Lists may run
over several lines and end in a comma; inline tables do neither.
-/
import AugmentedLagrangian.Toml.Number

namespace AugmentedLagrangian.Toml

set_option autoImplicit false

/-- The rest of a list, whose values the reader takes. -/
def elements (value : Reader Item) : (fuel : Nat) → Reader (List Item)
  | 0, _ => none
  | fuel + 1, s =>
    match skipLines s with
    | ']' :: s => some ([], s)
    | s => do
      let (item, s) ← value s
      match skipLines s with
      | ']' :: s => return ([item], s)
      | ',' :: s => do
        let (items, s) ← elements value fuel s
        return (item :: items, s)
      | _ => none

/-- A key with its value, as far as the value goes. -/
def pair (value : Reader Item) : Reader (List String × Item) := fun s => do
  let (parts, s) ← key depthLimit s
  let s ← char? '=' s
  let (item, s) ← value (skipBlanks s)
  return ((parts, item), s)

/-- The rest of an inline table that is not empty, after these entries. -/
def members (value : Reader Item) : (fuel : Nat) → Entries → Reader Entries
  | 0, _, _ => none
  | fuel + 1, es, s => do
    let ((parts, item), s) ← pair value s
    let (path, last) := splitKey parts
    let es ← es.insertDotted path last item .inlined
    match skipBlanks s with
    | '}' :: s => return (es, s)
    | ',' :: s => members value fuel es s
    | _ => none

/-- A list, after its bracket. -/
def list (value : Reader Item) : Reader Item := fun s => do
  let (items, s) ← elements value (s.length + 1) s
  return (.list items, s)

/-- An inline table, after its brace. -/
def inlineTable (value : Reader Item) : Reader Item := fun s =>
  match skipBlanks s with
  | '}' :: s => some (.table .inlined [], s)
  | s => do
    let (es, s) ← members value (s.length + 1) [] s
    return (.table .inlined es, s)

/-- A value that holds no others. -/
def plainValue : Reader Item := fun s =>
  match s with
  | '\x22' :: _ | '\x27' :: _ => do
    let (text, s) ← string s
    return (.text text, s)
  | 't' :: _ => (word? "true" s).map (.truth true, ·)
  | 'f' :: _ => (word? "false" s).map (.truth false, ·)
  | s => if looksLikeMoment s then moment s else number s

/-- A value with others inside, at most so deep. -/
def value : (depth : Nat) → Reader Item
  | 0, s =>
    match s with
    | '[' :: _ | '\x7b' :: _ => none
    | s => plainValue s
  | depth + 1, s =>
    match s with
    | '[' :: s => list (value depth) s
    | '\x7b' :: s => inlineTable (value depth) s
    | s => plainValue s

end AugmentedLagrangian.Toml

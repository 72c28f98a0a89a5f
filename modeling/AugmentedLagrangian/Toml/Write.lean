/- # AugmentedLagrangian.Toml.Write — a document as text

A table is written as the lines of its own values, in their order, followed by its tables, each
under a header with its path.  A blank line stands between one table and the next.  A table that
holds nothing but tables has no header.  Numbers are positional and whole reals keep a `.0`.

Not everything can be written: integers beyond 64 bits cannot, and moments, repeated headers and
tables inside lists are nothing that this library writes.
-/
import AugmentedLagrangian.Decimal.Layout
import AugmentedLagrangian.Toml.Item
import AugmentedLagrangian.Toml.Text

namespace AugmentedLagrangian.Toml

set_option autoImplicit false

/-! ## Values -/

/-- Reals in documents. -/
def realLayout : Decimal.Layout :=
  ⟨fun _ => true, ".0".toList, "nan".toList, "inf".toList⟩

/-- The text within quotes, with what cannot stand there escaped. -/
def quoted (s : String) : List Char :=
  let hex (n : Nat) : List Char :=
    let ds := Nat.toDigits 16 n
    List.replicate (4 - ds.length) '0' ++ ds
  let body := s.toList.flatMap fun c =>
    if c = '\x22' || c = '\\' then ['\\', c]
    else if isPlain c then [c]
    else '\\' :: 'u' :: hex c.toNat
  '\x22' :: body ++ ['\x22']

/-- A key, quoted only where it must be. -/
def keyText (key : String) : List Char :=
  if !key.isEmpty && key.toList.all isBare then key.toList else quoted key

mutual

/-- A value on one line. -/
def Item.lineText : Item → Option (List Char)
  | .text s => some (quoted s)
  | .whole i =>
    if -(wholeLimit : Int) ≤ i ∧ i < wholeLimit then some (Decimal.intText i) else none
  | .real x => some (realLayout.text x)
  | .truth b => some (if b then "true".toList else "false".toList)
  | .list items => do
    let texts ← listTexts items
    return '[' :: (", ".toList.intercalate texts ++ [']'])
  | _ => none

/-- The values of a list. -/
def listTexts : List Item → Option (List (List Char))
  | [] => some []
  | item :: items => do
    let text ← item.lineText
    let texts ← listTexts items
    return text :: texts

end

/-! ## Tables -/

/-- The lines of a table's own values. -/
def ownLines : Entries → Option (List (List Char))
  | [] => some []
  | (_, .table _ _) :: es => ownLines es
  | (key, item) :: es => do
    let text ← item.lineText
    let lines ← ownLines es
    return (keyText key ++ " = ".toList ++ text) :: lines

/-- The header of the table at a path; the document itself has none. -/
def headerLines : List String → List (List Char)
  | [] => []
  | path => ['[' :: (['.'].intercalate (path.map keyText) ++ [']'])]

/-- The part of the document that is the table's own, if it has one. -/
def ownSection (path : List String) (es : Entries) : Option (List (List (List Char))) := do
  let lines ← ownLines es
  if lines.isEmpty && (path.isEmpty || !es.isEmpty) then return []
  else return [headerLines path ++ lines]

mutual

/-- The parts of the document below an item at a path: none, unless it is a table. -/
def Item.sections (path : List String) : Item → Option (List (List (List Char)))
  | .table _ es => do
    let own ← ownSection path es
    let below ← sectionsBelow path es
    return own ++ below
  | _ => some []

/-- The parts of the document below the entries of the table at a path. -/
def sectionsBelow (path : List String) : Entries → Option (List (List (List Char)))
  | [] => some []
  | (key, item) :: es => do
    let here ← item.sections (path ++ [key])
    let rest ← sectionsBelow path es
    return here ++ rest

end

/-- The text of a document. -/
def write? (es : Entries) : Option String := do
  let sections ← (Item.table .headed es).sections []
  let text (lines : List (List Char)) : List Char := lines.flatMap fun line => line ++ ['\n']
  return String.ofList (['\n'].intercalate (sections.map text))

end AugmentedLagrangian.Toml

/- # AugmentedLagrangian.Toml.Text — blanks, comments, strings and keys

Readers take what they read off the front of a list of characters and return it with the rest, or
`none` if the front is not of their kind.  There are four ways to write a string: with escapes or
without, on one line or on several.
-/
namespace AugmentedLagrangian.Toml

set_option autoImplicit false

/-- Reads a value off the front. -/
abbrev Reader (α : Type) : Type := List Char → Option (α × List Char)

/-! ## Blanks, comments and line ends -/

def isBlank (c : Char) : Bool :=
  c = ' ' || c = '\t'

/-- Characters of comments and of strings without escapes: no controls but the tab. -/
def isPlain (c : Char) : Bool :=
  c = '\t' || (' ' ≤ c && c ≤ '~') || '\x80' ≤ c

def skipBlanks (s : List Char) : List Char :=
  s.dropWhile isBlank

/-- What follows a line feed, or a carriage return with one. -/
def newline? : List Char → Option (List Char)
  | '\n' :: s => some s
  | '\r' :: '\n' :: s => some s
  | _ => none

/-- What follows a comment, if one stands in front. -/
def skipComment : List Char → List Char
  | '#' :: s => s.dropWhile isPlain
  | s => s

/-- What follows blanks, a comment and the end of the line or of the document. -/
def lineEnd? (s : List Char) : Option (List Char) :=
  match skipComment (skipBlanks s) with
  | [] => some []
  | s => newline? s

/-- What follows blanks, comments and line ends, from inside a comment or not.  A comment that ends
amid its line is followed by a character that begins nothing. -/
def skipLinesFrom : (inComment : Bool) → List Char → List Char
  | _, [] => []
  | _, '\n' :: s => skipLinesFrom false s
  | _, '\r' :: '\n' :: s => skipLinesFrom false s
  | false, c :: s =>
    if c = '#' then skipLinesFrom true s
    else if isBlank c then skipLinesFrom false s
    else c :: s
  | true, c :: s => if isPlain c then skipLinesFrom true s else c :: s

/-- What follows blanks, comments and line ends. -/
def skipLines : List Char → List Char :=
  skipLinesFrom false

/-! ## Strings -/

/-- The value of a hexadecimal digit. -/
def hexDigit? (c : Char) : Option Nat :=
  if c.isDigit then some (c.toNat - '0'.toNat)
  else if 'a' ≤ c ∧ c ≤ 'f' then some (c.toNat - 'a'.toNat + 10)
  else if 'A' ≤ c ∧ c ≤ 'F' then some (c.toNat - 'A'.toNat + 10)
  else none

/-- The character whose code point is given by this many hexadecimal digits. -/
def codePoint (count : Nat) : Reader Char := fun s => do
  let front := s.take count
  if front.length < count then none
  else do
    let digits ← front.mapM hexDigit?
    let code := digits.foldl (fun n d => 16 * n + d) 0
    if code.isValidChar then some (Char.ofNat code, s.drop count) else none

/-- The character of an escape, after the backslash. -/
def escape : Reader Char
  | 'b' :: s => some ('\x08', s)
  | 't' :: s => some ('\t', s)
  | 'n' :: s => some ('\n', s)
  | 'f' :: s => some ('\x0c', s)
  | 'r' :: s => some ('\r', s)
  | '\x22' :: s => some ('\x22', s)
  | '\\' :: s => some ('\\', s)
  | 'u' :: s => codePoint 4 s
  | 'U' :: s => codePoint 8 s
  | _ => none

/-- The rest of a string on one line with escapes, after what has been read of it, last first. -/
def basicBody : (fuel : Nat) → (past : List Char) → Reader String
  | 0, _, _ => none
  | fuel + 1, past, s =>
    match s with
    | '\x22' :: s => some (String.ofList past.reverse, s)
    | '\\' :: s => do
      let (c, s) ← escape s
      basicBody fuel (c :: past) s
    | c :: s => if isPlain c then basicBody fuel (c :: past) s else none
    | [] => none

/-- A string on one line without escapes, after its opening quote. -/
def literalBody : Reader String := fun s =>
  let inside := s.takeWhile fun c => isPlain c && c ≠ '\x27'
  match s.drop inside.length with
  | '\x27' :: rest => some (String.ofList inside, rest)
  | _ => none

/-- What follows the blanks and line ends in front, of which a carriage return is one only with its
line feed. -/
def skipBreaks : List Char → List Char
  | ' ' :: s => skipBreaks s
  | '\t' :: s => skipBreaks s
  | '\n' :: s => skipBreaks s
  | '\r' :: '\n' :: s => skipBreaks s
  | s => s

/-- What follows the closing quotes of a string on several lines, of which up to two may belong to
the string, and those. -/
def closing? (quote : Char) (s : List Char) : Option (List Char × List Char) :=
  let run := (s.takeWhile (· = quote)).length
  if run < 3 then none
  else
    let inside := min (run - 3) 2
    some (List.replicate inside quote, s.drop (inside + 3))

/-- The rest of a string on several lines, after what has been read of it, last first. -/
def blockBody (quote : Char) (escapes : Bool) : (fuel : Nat) → (past : List Char) → Reader String
  | 0, _, _ => none
  | fuel + 1, past, s =>
    match closing? quote s with
    | some (quotes, s) => some (String.ofList (past.reverse ++ quotes), s)
    | none =>
      match newline? s with
      | some s => blockBody quote escapes fuel ('\n' :: past) s
      | none =>
        match s with
        | [] => none
        | c :: s =>
          if c = '\\' && escapes then
            match newline? (skipBlanks s) with
            | some s => blockBody quote escapes fuel past (skipBreaks s)
            | none => do
              let (c, s) ← escape s
              blockBody quote escapes fuel (c :: past) s
          else if isPlain c then blockBody quote escapes fuel (c :: past) s
          else none

/-- A string on several lines, after its opening quotes; a line end right behind them is left
out. -/
def block (quote : Char) (escapes : Bool) : Reader String := fun s =>
  blockBody quote escapes (s.length + 1) [] ((newline? s).getD s)

/-- A string of any kind. -/
def string : Reader String
  | '\x22' :: '\x22' :: '\x22' :: s => block '\x22' true s
  | '\x22' :: s => basicBody (s.length + 1) [] s
  | '\x27' :: '\x27' :: '\x27' :: s => block '\x27' false s
  | '\x27' :: s => literalBody s
  | _ => none

/-! ## Keys -/

/-- Characters of a key that is not quoted. -/
def isBare (c : Char) : Bool :=
  c.isAlphanum || c = '-' || c = '_'

/-- One part of a key: bare, or a string on one line. -/
def keyPart : Reader String
  | '\x22' :: s => basicBody (s.length + 1) [] s
  | '\x27' :: s => literalBody s
  | s =>
    let inside := s.takeWhile isBare
    if inside.isEmpty then none else some (String.ofList inside, s.drop inside.length)

/-- A key: one part or several with dots between them, of which there may be at most `room`.  Blanks
around the parts do not count. -/
def key : (room : Nat) → Reader (List String)
  | 0, _ => none
  | room + 1, s => do
    let (part, s) ← keyPart (skipBlanks s)
    match skipBlanks s with
    | '.' :: s => do
      let (parts, s) ← key room s
      return (part :: parts, s)
    | s => return ([part], s)

/-- The parts of a key but the last, and the last. -/
def splitKey (parts : List String) : List String × String :=
  (parts.dropLast, parts.getLast?.getD "")

/-- Keys have at most so many parts, and values nest at most so deep. -/
def depthLimit : Nat :=
  79

end AugmentedLagrangian.Toml

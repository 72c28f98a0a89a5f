/- # AugmentedLagrangian.Toml.Number — numbers, dates and times

Integers are decimal, or hexadecimal, octal or binary without a sign; underscores may stand between
digits.  Decimal ones start with no zero.  Reals have a fraction or an exponent, and are read as the
nearest double precision number; one for which that is infinity is refused, but not one for which it
is negative infinity.  Dates and times are only recognized.
-/
import AugmentedLagrangian.Decimal.Binary64
import AugmentedLagrangian.Toml.Item
import AugmentedLagrangian.Toml.Text

namespace AugmentedLagrangian.Toml

set_option autoImplicit false

/-! ## Digits -/

/-- More digits after those read so far, last first; an underscore stands between two digits. -/
def moreDigits (isDigit : Char → Bool) : (past : List Char) → Reader (List Char)
  | past, '_' :: c :: s => if isDigit c then moreDigits isDigit (c :: past) s else none
  | _, ['_'] => none
  | past, c :: s =>
    if isDigit c then moreDigits isDigit (c :: past) s else some (past.reverse, c :: s)
  | past, [] => some (past.reverse, [])

/-- One digit or more, without the underscores between them. -/
def digits (isDigit : Char → Bool) : Reader (List Char)
  | c :: s => if isDigit c then moreDigits isDigit [c] s else none
  | [] => none

/-- The number with these digits. -/
def numeral (base : Nat) (ds : List Char) : Nat :=
  ds.foldl (fun n c => base * n + (hexDigit? c).getD 0) 0

/-! ## Integers and reals -/

/-- An integer, if it fits in 64 bits with its sign. -/
def wholeItem (negative : Bool) (n : Nat) : Option Item :=
  if negative then if n ≤ wholeLimit then some (.whole (-(n : Int))) else none
  else if n < wholeLimit then some (.whole n) else none

/-- The real with these digits and exponent.  One that is too large is refused, and one that is too
far below zero is negative infinity. -/
def realItem (negative : Bool) (ds : List Char) (exponent : Int) : Option Item :=
  let word := Binary64.ofDecimal (numeral 10 ds) exponent
  if word = Binary64.infinityWord && !negative then none
  else some (.real (Binary64.toFloat negative word))

/-- A sign, if one stands in front. -/
def sign : List Char → Bool × List Char
  | '+' :: s => (false, s)
  | '-' :: s => (true, s)
  | s => (false, s)

/-- An exponent, after its letter. -/
def exponentDigits : Reader Int := fun s => do
  let (negative, s) := sign s
  let (ds, s) ← digits Char.isDigit s
  let n := numeral 10 ds
  return (if negative then -(n : Int) else n, s)

/-- An exponent, or none at all. -/
def exponent : Reader Int
  | 'e' :: s => exponentDigits s
  | 'E' :: s => exponentDigits s
  | s => some (0, s)

/-- The digits before the point: a single zero, or digits that start with none. -/
def wholeDigits : Reader (List Char)
  | '0' :: s => some (['0'], s)
  | s => digits Char.isDigit s

/-- A decimal number, after its sign. -/
def decimalNumber (negative : Bool) : Reader Item := fun s => do
  let (ds, s) ← wholeDigits s
  match s with
  | '.' :: s => do
    let (fraction, s) ← digits Char.isDigit s
    let (e, s) ← exponent s
    return (← realItem negative (ds ++ fraction) (e - fraction.length), s)
  | 'e' :: _ | 'E' :: _ => do
    let (e, s) ← exponent s
    return (← realItem negative ds e, s)
  | _ => return (← wholeItem negative (numeral 10 ds), s)

/-- What follows a word. -/
def word? (w : String) (s : List Char) : Option (List Char) :=
  w.toList.isPrefixOf? s

/-- An infinite real, or one that is no number, after its sign. -/
def specialReal (negative : Bool) (s : List Char) : Option (Item × List Char) :=
  match word? "inf" s, word? "nan" s with
  | some s, _ => some (.real (Binary64.toFloat negative Binary64.infinityWord), s)
  | none, some s => some (.real (Binary64.toFloat negative Binary64.nanWord), s)
  | none, none => none

/-- An integer in another base, after its mark. -/
def radixNumber (base : Nat) (isDigit : Char → Bool) : Reader Item := fun s => do
  let (ds, s) ← digits isDigit s
  return (← wholeItem false (numeral base ds), s)

/-- A number of any kind. -/
def number : Reader Item
  | '0' :: 'x' :: s => radixNumber 16 (fun c => (hexDigit? c).isSome) s
  | '0' :: 'o' :: s => radixNumber 8 (fun c => '0' ≤ c && c ≤ '7') s
  | '0' :: 'b' :: s => radixNumber 2 (fun c => c = '0' || c = '1') s
  | s =>
    let (negative, rest) := sign s
    match specialReal negative rest with
    | some read => some read
    | none => decimalNumber negative rest

/-! ## Dates and times -/

/-- A number of exactly this many digits, within bounds. -/
def fixedDigits (count low high : Nat) : Reader Nat := fun s =>
  let front := s.take count
  let n := numeral 10 front
  if front.length = count ∧ front.all Char.isDigit ∧ low ≤ n ∧ n ≤ high then
    some (n, s.drop count)
  else none

/-- What follows a character. -/
def char? (c : Char) : List Char → Option (List Char)
  | d :: s => if d = c then some s else none
  | [] => none

/-- How many days the month has. -/
def daysIn (year month : Nat) : Nat :=
  if month = 2 then if year % 4 = 0 ∧ (year % 100 ≠ 0 ∨ year % 400 = 0) then 29 else 28
  else if month = 4 ∨ month = 6 ∨ month = 9 ∨ month = 11 then 30
  else 31

/-- What follows a date. -/
def date? (s : List Char) : Option (List Char) := do
  let (year, s) ← fixedDigits 4 0 9999 s
  let s ← char? '-' s
  let (month, s) ← fixedDigits 2 1 12 s
  let s ← char? '-' s
  let (_, s) ← fixedDigits 2 1 (daysIn year month) s
  return s

/-- What follows a fraction of a second, or none. -/
def fraction? : List Char → Option (List Char)
  | '.' :: s =>
    let rest := s.dropWhile Char.isDigit
    if rest.length < s.length then some rest else none
  | s => some s

/-- What follows a time of day. -/
def time? (s : List Char) : Option (List Char) := do
  let (_, s) ← fixedDigits 2 0 23 s
  let s ← char? ':' s
  let (_, s) ← fixedDigits 2 0 59 s
  let s ← char? ':' s
  let (_, s) ← fixedDigits 2 0 60 s
  fraction? s

/-- What follows an offset from universal time, or none. -/
def offset? : List Char → Option (List Char)
  | 'Z' :: s => some s
  | 'z' :: s => some s
  | c :: s =>
    if c = '+' || c = '-' then do
      let (_, s) ← fixedDigits 2 0 23 s
      let s ← char? ':' s
      let (_, s) ← fixedDigits 2 0 59 s
      return s
    else some (c :: s)
  | [] => some []

/-- What follows the time of day behind a date, with its offset, or none. -/
def timeBehind? : List Char → Option (List Char)
  | c :: s =>
    if c = 'T' || c = 't' then do offset? (← time? s)
    else if c = ' ' then
      if (fixedDigits 2 0 99 s).isSome then do offset? (← time? s) else some (c :: s)
    else some (c :: s)
  | [] => some []

/-- Whether a date or a time of day stands in front, as far as its first mark shows. -/
def looksLikeMoment (s : List Char) : Bool :=
  let ds := (s.takeWhile Char.isDigit).length
  (ds == 4 && s[4]? == some '-') || (ds == 2 && s[2]? == some ':')

/-- A date, a time of day, or both. -/
def moment : Reader Item := fun s => do
  if s[2]? = some ':' then return (.moment, ← time? s)
  else return (.moment, ← timeBehind? (← date? s))

end AugmentedLagrangian.Toml

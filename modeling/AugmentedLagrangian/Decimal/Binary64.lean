/- # AugmentedLagrangian.Decimal.Binary64 — double precision numbers as ratios

A finite double precision number without its sign is `significand · 2 ^ power` in units of
`2 ^ (-1074)`, and the words of the format, read as natural numbers, stand in the order of these
values.  `ofRatio` is the other direction: the word of the number nearest to a ratio of natural
numbers, of two equally near ones the even.  Everything here is exact arithmetic on naturals.
-/
namespace AugmentedLagrangian.Binary64

set_option autoImplicit false

/-- The quotient rounded to the nearest natural number, a tie to the even one. -/
def roundDiv (num den : Nat) : Nat :=
  let q := num / den
  let twice := 2 * (num % den)
  if twice < den then q
  else if den < twice then q + 1
  else if q % 2 = 0 then q
  else q + 1

/-- The word of the infinite number; smaller words are finite numbers, larger ones no numbers. -/
def infinityWord : Nat :=
  0x7ff0000000000000

/-- The word of a value that is no number. -/
def nanWord : Nat :=
  0x7ff8000000000000

/-- The word of the sign. -/
def signWord : Nat :=
  0x8000000000000000

/-- How many words a binade has. -/
def binade : Nat :=
  0x10000000000000

/-- The integer that a word's number is a power of two times. -/
def significand (word : Nat) : Nat :=
  if word / binade = 0 then word else word % binade + binade

/-- How many times the significand is doubled, counted from the smallest positive number. -/
def power (word : Nat) : Nat :=
  word / binade - 1

/-- The number of a finite word in units of the smallest positive number. -/
def units (word : Nat) : Nat :=
  significand word <<< power word

/-- How many units there are in one. -/
def unitsPerOne : Nat :=
  1 <<< 1074

/-- The word of the number nearest to `num / den`, and of the infinite number if that is nearest.

The words of one binade are consecutive and the next binade's follow, so a significand that rounds
up to `2 ^ 53` lands on the right word by carrying into the exponent. -/
def ofRatio (num den : Nat) : Nat :=
  let scaled := num * unitsPerOne
  let doublings := (scaled / den).log2 + 1 - 53
  min infinityWord (doublings * binade + roundDiv scaled (den <<< doublings))

/-- The word nearest to `digits · 10 ^ exponent`.  Where the exponent alone decides, no power of ten
is computed. -/
def ofDecimal (digits : Nat) (exponent : Int) : Nat :=
  if digits = 0 then 0
  else if 400 < exponent then infinityWord
  else if exponent + (digits.log2 + 1 : Nat) < -400 then 0
  else if 0 ≤ exponent then ofRatio (digits * Nat.pow 10 exponent.toNat) 1
  else ofRatio digits (Nat.pow 10 (-exponent).toNat)

/-- The floating-point number of a word and a sign. -/
def toFloat (negative : Bool) (word : Nat) : Float :=
  Float.ofBits (UInt64.ofNat (if negative then word + signWord else word))

/-- The word of a number without its sign. -/
def wordOf (x : Float) : Nat :=
  x.toBits.toNat % signWord

/-- Whether the sign is set. -/
def isNegative (x : Float) : Bool :=
  signWord ≤ x.toBits.toNat

/-- The floating-point number nearest to a natural number. -/
def ofNat (n : Nat) : Float :=
  toFloat false (ofRatio n 1)

/-- The floating-point number nearest to an integer. -/
def ofInt (i : Int) : Float :=
  toFloat (i < 0) (ofRatio i.natAbs 1)

end AugmentedLagrangian.Binary64

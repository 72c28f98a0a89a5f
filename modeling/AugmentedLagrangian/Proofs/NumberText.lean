/- # AugmentedLagrangian.Proofs.NumberText — numbers in documents are read as what was written

A real stands as digits, a point and digits, as `inf` or as `nan`; a whole number as its digits.
The reader takes digits until something else follows (`digits_append`), so `Stops` says what may
follow a number.  Moving the point changes digits and exponent together, so whatever the position of
the point, the number that is read has the word of the digits that were written (`Placed`), and these
read back.
-/
import AugmentedLagrangian.Proofs.ReadBack
import AugmentedLagrangian.Proofs.Words
import AugmentedLagrangian.Toml.Number
import AugmentedLagrangian.Toml.Write

namespace AugmentedLagrangian

set_option autoImplicit false

namespace Toml

open Decimal (natText)

/-! ## Digits -/

/-- All characters are decimal digits. -/
def AllDigits (ds : List Char) : Prop :=
  ∀ c ∈ ds, c.isDigit = true

/-- What follows is no more digits. -/
def EndsDigits (rest : List Char) : Prop :=
  ∀ c ∈ rest.head?, c.isDigit = false ∧ c ≠ '_'

theorem AllDigits.append {ds es : List Char} (left : AllDigits ds) (right : AllDigits es) :
    AllDigits (ds ++ es) := fun c mem => (List.mem_append.1 mem).elim (left c) (right c)

theorem allDigits_natText (n : Nat) : AllDigits (natText n) := fun _ mem =>
  Nat.isDigit_of_mem_toDigits (by decide) (by decide) mem

theorem allDigits_zeros (k : Nat) : AllDigits (List.replicate k '0') := fun c mem => by
  rw [List.eq_of_mem_replicate mem]
  rfl

/-- Reading decimal digits is what the core library does. -/
theorem numeral_ten {ds : List Char} (all : AllDigits ds) :
    numeral 10 ds = Nat.ofDigitChars 10 ds 0 := by
  have fold : ∀ n, ds.foldl (fun n c => 10 * n + (hexDigit? c).getD 0) n =
      Nat.ofDigitChars 10 ds n := by
    induction ds with
    | nil => exact fun n => rfl
    | cons c ds ih =>
        intro n
        have digit : c.isDigit = true := all c List.mem_cons_self
        rw [List.foldl_cons, hexDigit?, if_pos digit, Nat.ofDigitChars_cons]
        exact ih (fun c mem => all c (List.mem_cons_of_mem _ mem)) _
  exact fold 0

theorem numeral_natText (n : Nat) : numeral 10 (natText n) = n := by
  rw [numeral_ten (allDigits_natText n)]
  exact Nat.ofDigitChars_ten_toDigits

/-- Zeros in front do not count. -/
theorem numeral_zeros_append (k n : Nat) :
    numeral 10 (List.replicate k '0' ++ natText n) = n := by
  rw [numeral_ten ((allDigits_zeros k).append (allDigits_natText n)), Nat.ofDigitChars_append,
    Nat.ofDigitChars_replicate_zero, Nat.mul_zero]
  exact Nat.ofDigitChars_ten_toDigits

/-- Zeros at the end count as tens. -/
theorem numeral_append_zeros (n k : Nat) :
    numeral 10 (natText n ++ List.replicate k '0') = n * 10 ^ k := by
  rw [numeral_ten ((allDigits_natText n).append (allDigits_zeros k)), Nat.ofDigitChars_append,
    Nat.ofDigitChars_replicate_zero, Nat.mul_comm]
  exact congrArg (· * 10 ^ k) Nat.ofDigitChars_ten_toDigits

theorem natText_ne_nil (n : Nat) : natText n ≠ [] :=
  Nat.toDigits_ne_nil

/-- A positive number is written without a zero in front. -/
theorem head?_natText {n : Nat} (positive : n ≠ 0) : (natText n).head? ≠ some '0' := by
  induction n using Nat.strongRecOn with
  | _ n ih =>
      rw [natText]
      rcases Nat.lt_or_ge n 10 with one | more
      · rw [Nat.toDigits_of_lt_base one]
        have digits : ∀ k < 10, k ≠ 0 → some k.digitChar ≠ some '0' := by decide
        exact digits n one positive
      · rw [Nat.toDigits_of_base_le (by decide) more,
          List.head?_append_of_ne_nil _ Nat.toDigits_ne_nil]
        exact ih (n / 10) (by omega) (by omega)

/-! ## Reading digits -/

theorem moreDigits_append {ds rest : List Char} (all : AllDigits ds) (ends : EndsDigits rest)
    (past : List Char) :
    moreDigits Char.isDigit past (ds ++ rest) = some (past.reverse ++ ds, rest) := by
  induction ds generalizing past with
  | nil =>
      rw [List.nil_append, List.append_nil]
      unfold moreDigits
      split
      · exact absurd rfl (ends '_' rfl).2
      · exact absurd rfl (ends '_' rfl).2
      · rw [if_neg (by simp [(ends _ rfl).1])]
      · rfl
  | cons c ds ih =>
      have digit : c.isDigit = true := all c List.mem_cons_self
      have plain : c ≠ '_' := by
        rintro rfl
        cases digit
      have others := ih fun c mem => all c (List.mem_cons_of_mem _ mem)
      rw [List.cons_append, moreDigits, if_pos digit, others, List.reverse_cons, List.append_assoc]
      · rfl
      · rintro _ _ rfl
        exact absurd rfl plain
      · rintro rfl
        exact absurd rfl plain

theorem digits_append {ds rest : List Char} (nonempty : ds ≠ []) (all : AllDigits ds)
    (ends : EndsDigits rest) : digits Char.isDigit (ds ++ rest) = some (ds, rest) := by
  cases ds with
  | nil => exact absurd rfl nonempty
  | cons c ds =>
      rw [List.cons_append, digits, if_pos (all c List.mem_cons_self)]
      exact moreDigits_append (fun c mem => all c (List.mem_cons_of_mem _ mem)) ends [c]

/-! ## The number before what follows it -/

/-- What follows is no part of a number. -/
def Stops (rest : List Char) : Prop :=
  ∀ c ∈ rest.head?, c.isDigit = false ∧ c ∉ ['_', '.', 'e', 'E', '-', ':', 'x', 'o', 'b']

theorem Stops.endsDigits {rest : List Char} (stops : Stops rest) : EndsDigits rest := fun c mem =>
  ⟨(stops c mem).1, fun same => (stops c mem).2 (by simp [same])⟩

theorem endsDigits_point (rest : List Char) : EndsDigits ('.' :: rest) := by
  rintro c ⟨⟩
  decide

/-- Digits that can stand before the point: a single zero, or digits that start with none. -/
structure Whole (ds : List Char) : Prop where
  nonempty : ds ≠ []
  digits : AllDigits ds
  leads : ds = ['0'] ∨ ds.head? ≠ some '0'

theorem whole_natText (n : Nat) : Whole (natText n) where
  nonempty := natText_ne_nil n
  digits := allDigits_natText n
  leads := by
    by_cases positive : n = 0
    · rw [positive]
      exact .inl (by decide)
    · exact .inr (head?_natText positive)

theorem Whole.wholeDigits_append {ds rest : List Char} (whole : Whole ds) (ends : EndsDigits rest) :
    wholeDigits (ds ++ rest) = some (ds, rest) := by
  rcases whole.leads with rfl | leads
  · rfl
  · rw [wholeDigits, digits_append whole.nonempty whole.digits ends]
    intro s same
    cases ds with
    | nil => exact whole.nonempty rfl
    | cons c ds =>
        cases same
        exact leads rfl

theorem sign_of_digit {c : Char} (digit : c.isDigit = true) (s : List Char) :
    sign (c :: s) = (false, c :: s) := by
  unfold sign
  split
  · rename_i same
    cases same
    cases digit
  · rename_i same
    cases same
    cases digit
  · rfl

theorem specialReal_of_digit {c : Char} (digit : c.isDigit = true) (negative : Bool)
    (s : List Char) : specialReal negative (c :: s) = none := by
  have inf : ('i' == c) = false := by
    rw [beq_eq_false_iff_ne]
    rintro rfl
    cases digit
  have nan : ('n' == c) = false := by
    rw [beq_eq_false_iff_ne]
    rintro rfl
    cases digit
  simp [specialReal, word?, List.isPrefixOf?, inf, nan]

/-- A minus sign, if the number is negative. -/
def signText (negative : Bool) : List Char :=
  if negative then ['-'] else []

/-- A number that begins with a digit, or a sign and a digit, is a decimal one. -/
theorem Whole.number_eq {ds rest : List Char} (whole : Whole ds)
    (next : ∀ c ∈ rest.head?, c ∉ ['x', 'o', 'b']) (negative : Bool) :
    number (signText negative ++ (ds ++ rest)) = decimalNumber negative (ds ++ rest) := by
  obtain ⟨nonempty, digits, leads⟩ := whole
  cases ds with
  | nil => exact absurd rfl nonempty
  | cons c ds =>
      have digit : c.isDigit = true := digits c List.mem_cons_self
      have marked : ∀ mark ∈ ['x', 'o', 'b'], ∀ s, c :: (ds ++ rest) ≠ '0' :: mark :: s := by
        rintro mark marks s same
        obtain ⟨rfl, tail⟩ := List.cons.inj same
        cases ds with
        | nil =>
            have following : rest = mark :: s := tail
            exact next mark (by rw [following]; rfl) marks
        | cons d ds =>
            rcases leads with leads | leads
            · cases leads
            · exact leads rfl
      cases negative with
      | true =>
          show number ('-' :: c :: (ds ++ rest)) = decimalNumber true (c :: (ds ++ rest))
          rw [number, sign]
          · simp only [specialReal_of_digit digit]
          all_goals nofun
      | false =>
          show number (c :: (ds ++ rest)) = decimalNumber false (c :: (ds ++ rest))
          rw [number, sign_of_digit digit]
          · simp only [specialReal_of_digit digit]
          · exact marked 'x' (by simp)
          · exact marked 'o' (by simp)
          · exact marked 'b' (by simp)

/-! ## Reals -/

/-- The digits before the point and those after it, read as the word. -/
structure Placed (ds fraction : List Char) (word : Nat) : Prop where
  whole : Whole ds
  nonempty : fraction ≠ []
  digits : AllDigits fraction
  reads : Binary64.ofDecimal (numeral 10 (ds ++ fraction)) (-(fraction.length : Int)) = word

theorem Placed.decimalNumber_append {ds fraction rest : List Char} {word : Nat}
    (placed : Placed ds fraction word) (finite : word < Binary64.infinityWord) (negative : Bool)
    (stops : Stops rest) :
    decimalNumber negative (ds ++ '.' :: fraction ++ rest) =
      some (.real (Binary64.toFloat negative word), rest) := by
  have noExponent : exponent rest = some (0, rest) := by
    unfold exponent
    split
    · exact absurd (by simp) (stops 'e' rfl).2
    · exact absurd (by simp) (stops 'E' rfl).2
    · rfl
  have item : realItem negative (ds ++ fraction) (0 - fraction.length) =
      some (.real (Binary64.toFloat negative word)) := by
    rw [realItem, Int.zero_sub, placed.reads]
    simp [Nat.ne_of_lt finite]
  rw [List.append_assoc, List.cons_append, decimalNumber,
    placed.whole.wholeDigits_append (endsDigits_point _)]
  simp only [Option.bind_eq_bind, Option.bind_some,
    digits_append placed.nonempty placed.digits stops.endsDigits, noExponent, item]
  rfl

/-- Wherever the point is put, the digits are read as their word. -/
theorem exists_placed {d : Decimal.Digits} (positive : d.digits ≠ 0) :
    ∃ ds fraction, Decimal.positionalText ['.', '0'] d = ds ++ '.' :: fraction ∧
      Placed ds fraction d.word := by
  have head : (natText d.digits).head? ≠ some '0' := head?_natText positive
  have some : natText d.digits ≠ [] := natText_ne_nil _
  have all : AllDigits (natText d.digits) := allDigits_natText _
  rw [Decimal.positionalText]
  by_cases scaled : 0 ≤ d.exponent
  · -- zeros behind the digits, and one more behind the point
    refine ⟨natText d.digits ++ List.replicate d.exponent.toNat '0', ['0'],
      if_pos scaled, ⟨?_, ?_, ?_⟩, by simp, allDigits_zeros 1, ?_⟩
    · simp [some]
    · exact all.append (allDigits_zeros _)
    · rw [List.head?_append_of_ne_nil _ some]
      exact .inr head
    · have zeros : natText d.digits ++ List.replicate d.exponent.toNat '0' ++ ['0'] =
          natText d.digits ++ List.replicate (d.exponent.toNat + 1) '0' := by
        rw [List.append_assoc, List.replicate_succ']
      rw [zeros, numeral_append_zeros, Binary64.ofDecimal_mul_pow positive, Decimal.Digits.word]
      congr 1
      simp
      omega
  · rw [if_neg scaled]
    generalize length : (-d.exponent).toNat = places
    by_cases inside : places < (natText d.digits).length
    · -- the point stands among the digits
      have cut : (natText d.digits).take ((natText d.digits).length - places) ≠ [] := by
        simp only [ne_eq, List.take_eq_nil_iff, not_or]
        exact ⟨by omega, some⟩
      refine ⟨_, _, if_pos inside, ⟨cut, ?_, ?_⟩, ?_, ?_, ?_⟩
      · exact fun c mem => all c (List.mem_of_mem_take mem)
      · right
        rw [List.head?_take, if_neg (by omega)]
        exact head
      · rw [ne_eq, List.drop_eq_nil_iff]
        omega
      · exact fun c mem => all c (List.mem_of_mem_drop mem)
      · rw [List.take_append_drop, numeral_natText, Decimal.Digits.word, List.length_drop]
        congr 1
        omega
    · -- the digits stand behind the point, after zeros
      refine ⟨['0'], List.replicate (places - (natText d.digits).length) '0' ++ natText d.digits,
        if_neg inside, ⟨by simp, allDigits_zeros 1, .inl rfl⟩, ?_, ?_, ?_⟩
      · simp [some]
      · exact (allDigits_zeros _).append all
      · have zeros : ['0'] ++ (List.replicate (places - (natText d.digits).length) '0' ++
            natText d.digits) =
            List.replicate (places - (natText d.digits).length + 1) '0' ++ natText d.digits := rfl
        rw [zeros, numeral_zeros_append, Decimal.Digits.word]
        congr 1
        simp
        omega

/-- A finite real without its sign is digits, a point and digits, which are read as its word. -/
theorem exists_placed_magnitude {word : Nat} (finite : word < Binary64.infinityWord) :
    ∃ ds fraction, realLayout.magnitudeText word = ds ++ '.' :: fraction ∧
      Placed ds fraction word := by
  rw [Decimal.Layout.magnitudeText]
  by_cases zero : word = 0
  · refine ⟨['0'], ['0'], if_pos zero, ⟨by simp, allDigits_zeros 1, .inl rfl⟩, by simp,
      allDigits_zeros 1, ?_⟩
    rw [zero]
    rfl
  · have reads := Decimal.fewestDigits_readsBack (Nat.pos_of_ne_zero zero) finite
    rw [if_neg zero]
    have placed := exists_placed (Decimal.Digits.digits_ne_zero (reads ▸ zero))
    rw [reads] at placed
    exact placed

/-- What a real is written as. -/
inductive RealText : Float → List Char → Prop
  | nan : RealText (Binary64.toFloat false Binary64.nanWord) ['n', 'a', 'n']
  | infinite (negative : Bool) :
      RealText (Binary64.toFloat negative Binary64.infinityWord)
        (signText negative ++ ['i', 'n', 'f'])
  | finite (negative : Bool) {ds fraction : List Char} {word : Nat}
      (placed : Placed ds fraction word) (finite : word < Binary64.infinityWord) :
      RealText (Binary64.toFloat negative word) (signText negative ++ (ds ++ '.' :: fraction))

theorem realText (x : Float) : RealText x (realLayout.text x) := by
  rw [Decimal.Layout.text]
  by_cases beyond : Binary64.infinityWord < Binary64.wordOf x
  · rw [if_pos beyond, Binary64.eq_nan_of_wordOf beyond]
    exact .nan
  have signed (body : List Char) : (if Binary64.isNegative x = true then '-' :: body else body) =
      signText (Binary64.isNegative x) ++ body := by
    cases Binary64.isNegative x <;> rfl
  have same := Binary64.toFloat_wordOf x
  simp only [if_neg beyond, signed]
  by_cases infinite : Binary64.wordOf x = Binary64.infinityWord
  · have written := RealText.infinite (Binary64.isNegative x)
    rw [← infinite, same] at written
    rw [if_pos infinite]
    exact written
  · have finite : Binary64.wordOf x < Binary64.infinityWord := by omega
    obtain ⟨ds, fraction, text, placed⟩ := exists_placed_magnitude finite
    have written := RealText.finite (Binary64.isNegative x) placed finite
    rw [if_neg infinite, text]
    rwa [same] at written

/-- A real is read as what was written. -/
theorem RealText.number_append {x : Float} {text rest : List Char} (written : RealText x text)
    (stops : Stops rest) : number (text ++ rest) = some (.real x, rest) := by
  cases written with
  | nan => rfl
  | infinite negative => cases negative <;> rfl
  | finite negative placed finite =>
      rw [List.append_assoc, List.append_assoc, placed.whole.number_eq (by simp),
        ← List.append_assoc, placed.decimalNumber_append finite _ stops]

/-! ## Integers -/

theorem Whole.decimalNumber_append {ds rest : List Char} (whole : Whole ds) (stops : Stops rest)
    (negative : Bool) :
    decimalNumber negative (ds ++ rest) =
      (wholeItem negative (numeral 10 ds)).map fun item => (item, rest) := by
  rw [decimalNumber, whole.wholeDigits_append stops.endsDigits]
  simp only [Option.bind_eq_bind, Option.bind_some]
  split
  · exact absurd (by simp) (stops '.' rfl).2
  · exact absurd (by simp) (stops 'e' rfl).2
  · exact absurd (by simp) (stops 'E' rfl).2
  · cases wholeItem negative (numeral 10 ds) <;> rfl

/-- An integer is read as what was written, if it can be written. -/
theorem number_whole {i : Int} (low : -(wholeLimit : Int) ≤ i) (high : i < wholeLimit)
    {rest : List Char} (stops : Stops rest) :
    number (Decimal.intText i ++ rest) = some (.whole i, rest) := by
  have marks : ∀ c ∈ rest.head?, c ∉ ['x', 'o', 'b'] := fun c mem marked =>
    (stops c mem).2 (by simp only [List.mem_cons, List.not_mem_nil] at marked ⊢; tauto)
  have read (negative : Bool) :
      number (signText negative ++ (natText i.natAbs ++ rest)) =
        (wholeItem negative i.natAbs).map fun item => (item, rest) := by
    rw [(whole_natText _).number_eq marks, (whole_natText _).decimalNumber_append stops,
      numeral_natText]
  rw [Decimal.intText]
  by_cases negative : i < 0
  · have item : wholeItem true i.natAbs = some (.whole i) := by
      rw [wholeItem, if_pos rfl, if_pos (by omega)]
      congr 2
      omega
    rw [if_pos negative]
    exact (read true).trans (by rw [item]; rfl)
  · have item : wholeItem false i.natAbs = some (.whole i) := by
      rw [wholeItem, if_neg (by simp), if_pos (by omega)]
      congr 2
      omega
    rw [if_neg negative]
    exact (read false).trans (by rw [item]; rfl)

end Toml

end AugmentedLagrangian

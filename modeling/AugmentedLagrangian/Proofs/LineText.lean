/- # AugmentedLagrangian.Proofs.LineText — lines of documents are read as what was written

A line is a header, or a key with its value.  Values that a line can hold and that the reader takes
for the same again are `Legible`; keys that need no quotes are `Bare`.  Behind a value the line
ends, and a line end is part of no value.

A list is read value by value.  Behind each of its values stands a comma or the closing bracket,
neither of which is part of a number, and behind a comma a blank, which the reader passes over.
-/
import AugmentedLagrangian.Proofs.NumberText
import AugmentedLagrangian.Toml.Document

namespace AugmentedLagrangian

set_option autoImplicit false

namespace Toml

/-! ## Values -/

/-- Characters that stand for themselves between quotes. -/
def Unescaped (cs : List Char) : Prop :=
  ∀ c ∈ cs, isPlain c = true ∧ c ≠ '\x22' ∧ c ≠ '\\'

instance (cs : List Char) : Decidable (Unescaped cs) :=
  decidable_of_iff (cs.all (fun c => isPlain c && c ≠ '\x22' && c ≠ '\\') = true) <| by
    simp [Unescaped, and_assoc]

/-- The values that a line holds and that are read as they are: numbers, lists of reals, truth
values, and texts that are not empty and need no escapes. -/
inductive Legible : Item → Prop
  | real (x : Float) : Legible (.real x)
  | whole (i : Int) : Legible (.whole i)
  | truth (b : Bool) : Legible (.truth b)
  | text {s : String} (nonempty : s.toList ≠ []) (plain : Unescaped s.toList) : Legible (.text s)
  | reals (xs : List Float) : Legible (.list (xs.map .real))

theorem stops_newline (rest : List Char) : Stops ('\n' :: rest) := by
  rintro c ⟨⟩
  decide

theorem looksLikeMoment_of_head {c : Char} (sign : c.isDigit = false) (s : List Char) :
    looksLikeMoment (c :: s) = false := by
  simp [looksLikeMoment, sign]

theorem takeWhile_digits {ds rest : List Char} (all : AllDigits ds) (ends : EndsDigits rest) :
    (ds ++ rest).takeWhile Char.isDigit = ds := by
  rw [List.takeWhile_append_of_pos all]
  cases rest with
  | nil => simp
  | cons c rest => simp [(ends c rfl).1]

/-- Digits are no moment unless a mark of moments follows. -/
theorem looksLikeMoment_of_digits {ds rest : List Char} (all : AllDigits ds)
    (ends : EndsDigits rest) (marks : ∀ c ∈ rest.head?, c ≠ '-' ∧ c ≠ ':') :
    looksLikeMoment (ds ++ rest) = false := by
  have next : ∀ mark, (mark = '-' ∨ mark = ':') → ∀ n, ds.length = n →
      (ds ++ rest)[n]? ≠ some mark := by
    rintro mark either n rfl same
    rw [List.getElem?_append_right (Nat.le_refl _), Nat.sub_self, ← List.head?_eq_getElem?] at same
    rcases either with rfl | rfl
    · exact (marks _ same).1 rfl
    · exact (marks _ same).2 rfl
  rw [looksLikeMoment, takeWhile_digits all ends]
  simp only [Bool.or_eq_false_iff, Bool.and_eq_false_imp, beq_iff_eq, beq_eq_false_iff_ne]
  exact ⟨next '-' (.inl rfl) 4, next ':' (.inr rfl) 2⟩

/-- What begins like a number and is no moment is read as a number. -/
theorem value_of_number {c : Char} {s : List Char}
    (head : c ∉ ['\x22', '\x27', 't', 'f', '[', '\x7b'])
    (number? : looksLikeMoment (c :: s) = false) (depth : Nat) :
    value depth (c :: s) = number (c :: s) := by
  simp only [List.mem_cons, List.not_mem_nil, or_false, not_or] at head
  obtain ⟨quote, apostrophe, t, f, bracket, brace⟩ := head
  have plain : plainValue (c :: s) = number (c :: s) := by
    rw [plainValue, number?, if_neg Bool.false_ne_true]
    all_goals
      rintro _ ⟨⟩
      contradiction
  cases depth with
  | zero =>
      rw [value, plain]
      all_goals
        rintro _ ⟨⟩
        contradiction
  | succ depth =>
      rw [value, plain]
      all_goals
        rintro _ ⟨⟩
        contradiction

/-- Behind a sign stands a number. -/
theorem value_of_sign (depth : Nat) (s : List Char) : value depth ('-' :: s) = number ('-' :: s) :=
  value_of_number (by decide) (looksLikeMoment_of_head (by decide) s) depth

/-- Digits stand for a number if no mark of moments follows. -/
theorem Whole.value_eq {ds rest : List Char} (whole : Whole ds) (ends : EndsDigits rest)
    (marks : ∀ c ∈ rest.head?, c ≠ '-' ∧ c ≠ ':') (depth : Nat) :
    value depth (ds ++ rest) = number (ds ++ rest) := by
  have number? := looksLikeMoment_of_digits whole.digits ends marks
  obtain ⟨nonempty, digits, -⟩ := whole
  cases ds with
  | nil => exact absurd rfl nonempty
  | cons c ds =>
      have digit : c.isDigit = true := digits c List.mem_cons_self
      refine value_of_number ?_ number? depth
      intro mem
      simp only [List.mem_cons, List.not_mem_nil, or_false] at mem
      rcases mem with rfl | rfl | rfl | rfl | rfl | rfl <;> cases digit

theorem RealText.value_append {x : Float} {text rest : List Char} (written : RealText x text)
    (stops : Stops rest) (depth : Nat) : value depth (text ++ rest) = some (.real x, rest) := by
  rw [← written.number_append stops]
  cases written with
  | nan => exact value_of_number (by decide) (looksLikeMoment_of_head (by decide) _) depth
  | infinite negative =>
      cases negative with
      | true => exact value_of_sign depth _
      | false => exact value_of_number (by decide) (looksLikeMoment_of_head (by decide) _) depth
  | @finite negative ds fraction _ placed =>
      cases negative with
      | true => exact value_of_sign depth _
      | false =>
          have whole : value depth (ds ++ ('.' :: (fraction ++ rest))) =
              number (ds ++ ('.' :: (fraction ++ rest))) :=
            placed.whole.value_eq (endsDigits_point _) (by simp) depth
          simpa [signText] using whole

theorem value_whole {i : Int} (low : -(wholeLimit : Int) ≤ i) (high : i < wholeLimit)
    {rest : List Char} (stops : Stops rest) (depth : Nat) :
    value depth (Decimal.intText i ++ rest) = some (.whole i, rest) := by
  rw [← number_whole low high stops, Decimal.intText]
  by_cases negative : i < 0
  · rw [if_pos negative]
    exact value_of_sign depth _
  · rw [if_neg negative]
    refine (whole_natText _).value_eq stops.endsDigits (fun c mem => ?_) depth
    have other := (stops c mem).2
    constructor
    · rintro rfl
      exact other (by simp)
    · rintro rfl
      exact other (by simp)

theorem value_truth (b : Bool) (rest : List Char) (depth : Nat) :
    value depth ((if b then "true".toList else "false".toList) ++ rest) =
      some (.truth b, rest) := by
  cases b <;> cases depth <;> rfl

/-- The body of a text without escapes. -/
theorem basicBody_append {cs rest : List Char}
    (plain : ∀ c ∈ cs, isPlain c = true ∧ c ≠ '"' ∧ c ≠ '\\') (past : List Char) (fuel : Nat)
    (enough : cs.length < fuel) :
    basicBody fuel past (cs ++ '"' :: rest) = some (String.ofList (past.reverse ++ cs), rest) := by
  induction cs generalizing past fuel with
  | nil =>
      obtain ⟨fuel, rfl⟩ := Nat.exists_eq_succ_of_ne_zero (Nat.ne_of_gt enough)
      rw [List.append_nil]
      rfl
  | cons c cs ih =>
      obtain ⟨fuel, rfl⟩ := Nat.exists_eq_succ_of_ne_zero (Nat.ne_of_gt (Nat.zero_lt_of_lt enough))
      obtain ⟨printable, quote, backslash⟩ := plain c List.mem_cons_self
      have rest := ih (fun c mem => plain c (List.mem_cons_of_mem _ mem)) (c :: past) fuel
        (Nat.lt_of_succ_lt_succ enough)
      rw [List.cons_append, Nat.succ_eq_add_one, basicBody, if_pos printable, rest,
        List.reverse_cons, List.append_assoc]
      · rfl
      · exact quote
      · exact backslash

theorem quoted_of_plain {s : String} (plain : Unescaped s.toList) :
    quoted s = '\x22' :: (s.toList ++ ['\x22']) := by
  have body : ∀ cs, Unescaped cs → (cs.flatMap fun c =>
      if c = '\x22' || c = '\\' then ['\\', c]
      else if isPlain c then [c]
      else '\\' :: 'u' :: (List.replicate (4 - (Nat.toDigits 16 c.toNat).length) '0' ++
        Nat.toDigits 16 c.toNat)) = cs := by
    intro cs plain
    induction cs with
    | nil => rfl
    | cons c cs ih =>
        obtain ⟨printable, quote, backslash⟩ := plain c List.mem_cons_self
        rw [List.flatMap_cons, ih fun c mem => plain c (List.mem_cons_of_mem _ mem),
          if_neg (by simp [quote, backslash]), if_pos printable]
        rfl
  rw [quoted]
  exact congrArg (fun cs => '\x22' :: (cs ++ ['\x22'])) (body _ plain)

theorem string_quoted {s : String} (nonempty : s.toList ≠ []) (plain : Unescaped s.toList)
    (rest : List Char) : string (quoted s ++ rest) = some (s, rest) := by
  have body : basicBody ((s.toList ++ '\x22' :: rest).length + 1) [] (s.toList ++ '\x22' :: rest) =
      some (String.ofList ([].reverse ++ s.toList), rest) := basicBody_append plain [] _ (by simp)
  rw [quoted_of_plain plain, List.cons_append, List.append_assoc, List.singleton_append]
  cases chars : s.toList with
  | nil => exact absurd chars nonempty
  | cons c cs =>
      have quote : c ≠ '\x22' := (plain c (by simp [chars])).2.1
      rw [← chars, string, body]
      · simp
      · rintro _ same
        rw [chars] at same
        exact quote (List.cons.inj same).1

theorem value_text {s : String} (nonempty : s.toList ≠ []) (plain : Unescaped s.toList)
    (rest : List Char) (depth : Nat) : value depth (quoted s ++ rest) = some (.text s, rest) := by
  have read := string_quoted nonempty plain rest
  rw [quoted_of_plain plain] at read ⊢
  have taken : plainValue ('\x22' :: (s.toList ++ ['\x22']) ++ rest) = some (.text s, rest) := by
    rw [List.cons_append] at read ⊢
    rw [plainValue, read]
    rfl
  cases depth <;> exact taken

/-! ## What a line begins with -/

/-- The text begins with something, which is no blank. -/
def Begins (text : List Char) : Prop :=
  ∃ c s, text = c :: s ∧ isBlank c = false

theorem Begins.skipBlanks_append {text : List Char} (begins : Begins text) (rest : List Char) :
    skipBlanks (text ++ rest) = text ++ rest := by
  obtain ⟨c, s, rfl, solid⟩ := begins
  exact List.dropWhile_cons_of_neg (by simp [solid])

/-- What a statement begins with. -/
def isOpening (c : Char) : Bool :=
  c = '[' || isBare c

/-- The text begins like a statement, as numbers do. -/
def Opens (text : List Char) : Prop :=
  ∃ c s, text = c :: s ∧ isOpening c = true

theorem ne_of_isOpening {c d : Char} (opening : isOpening c = true) (other : isOpening d = false) :
    c ≠ d := by
  rintro rfl
  rw [opening] at other
  cases other

namespace Opens

variable {text : List Char}

theorem begins (opens : Opens text) : Begins text := by
  obtain ⟨c, s, rfl, opening⟩ := opens
  refine ⟨c, s, rfl, ?_⟩
  rw [isBlank, Bool.or_eq_false_iff, decide_eq_false_iff_not, decide_eq_false_iff_not]
  exact ⟨ne_of_isOpening opening (by decide), ne_of_isOpening opening (by decide)⟩

theorem append (opens : Opens text) (rest : List Char) : Opens (text ++ rest) := by
  obtain ⟨c, s, rfl, opening⟩ := opens
  exact ⟨c, s ++ rest, rfl, opening⟩

/-- No blanks, comments or line ends stand in front. -/
theorem skipLines_eq (opens : Opens text) : skipLines text = text := by
  obtain ⟨c, s, chars, solid⟩ := opens.begins
  obtain ⟨c', s', rfl, opening⟩ := opens
  cases chars
  rw [skipLines, skipLinesFrom, if_neg (ne_of_isOpening opening (by decide)),
    if_neg (by simp [solid])]
  · exact ne_of_isOpening opening (by decide)
  · rintro _ same
    exact absurd same (ne_of_isOpening opening (by decide))

theorem of_sign {negative : Bool} (opens : Opens text) : Opens (signText negative ++ text) := by
  cases negative with
  | true => exact ⟨'-', text, rfl, by decide⟩
  | false => exact opens

end Opens

theorem Whole.opens {ds : List Char} (whole : Whole ds) : Opens ds := by
  obtain ⟨nonempty, digits, -⟩ := whole
  cases ds with
  | nil => exact absurd rfl nonempty
  | cons c s =>
      have digit : c.isDigit = true := digits c List.mem_cons_self
      exact ⟨c, s, rfl, by simp [isOpening, isBare, Char.isAlphanum, digit]⟩

theorem RealText.opens {x : Float} {text : List Char} (written : RealText x text) :
    Opens text := by
  cases written with
  | nan => exact ⟨'n', _, rfl, by decide⟩
  | infinite => exact .of_sign ⟨'i', _, rfl, by decide⟩
  | finite _ placed => exact .of_sign (placed.whole.opens.append _)

/-! ## Lists -/

/-- Reals in a list, between its brackets. -/
def realsText (xs : List Float) : List Char :=
  [',', ' '].intercalate (xs.map realLayout.text)

theorem realsText_cons_cons (x y : Float) (xs : List Float) :
    realsText (x :: y :: xs) = realLayout.text x ++ ',' :: ' ' :: realsText (y :: xs) := by
  simp [realsText, List.intercalate]

theorem opens_realsText (x : Float) (xs : List Float) : Opens (realsText (x :: xs)) := by
  cases xs with
  | nil =>
      have alone : realsText [x] = realLayout.text x := by simp [realsText, List.intercalate]
      rw [alone]
      exact (realText x).opens
  | cons y xs =>
      rw [realsText_cons_cons]
      exact (realText x).opens.append _

theorem listTexts_reals (xs : List Float) :
    listTexts (xs.map .real) = some (xs.map realLayout.text) := by
  induction xs with
  | nil => rfl
  | cons x xs ih =>
      rw [List.map_cons, listTexts, ih]
      rfl

theorem lineText_reals (xs : List Float) :
    (Item.list (xs.map .real)).lineText = some ('[' :: (realsText xs ++ [']'])) := by
  rw [Item.lineText, listTexts_reals]
  rfl

theorem elements_of_opens (reader : Reader Item) (fuel : Nat) {s : List Char}
    (opens : Opens (skipLines s)) :
    elements reader (fuel + 1) s = (do
      let (item, s) ← reader (skipLines s)
      match skipLines s with
      | ']' :: s => return ([item], s)
      | ',' :: s => do
        let (items, s) ← elements reader fuel s
        return (item :: items, s)
      | _ => none) := by
  obtain ⟨c, cs, chars, opening⟩ := opens
  rw [elements, chars]
  split
  · rename_i same
    cases same
    exact absurd opening (by decide)
  · rfl

/-- The reals of a list are read one by one. -/
theorem elements_realsText (xs : List Float) (depth : Nat) {fuel : Nat} {s rest : List Char}
    (front : skipLines s = realsText xs ++ ']' :: rest) (enough : (realsText xs).length < fuel) :
    elements (value depth) fuel s = some (xs.map .real, rest) := by
  induction xs generalizing fuel s with
  | nil =>
      obtain ⟨fuel, rfl⟩ := Nat.exists_eq_succ_of_ne_zero (Nat.ne_of_gt enough)
      rw [Nat.succ_eq_add_one, elements, front]
      rfl
  | cons x xs ih =>
      obtain ⟨fuel, rfl⟩ := Nat.exists_eq_succ_of_ne_zero (Nat.ne_of_gt (Nat.zero_lt_of_lt enough))
      have opens : Opens (skipLines s) := front ▸ (opens_realsText x xs).append _
      rw [Nat.succ_eq_add_one, elements_of_opens _ _ opens, front]
      cases xs with
      | nil =>
          have text : realsText [x] = realLayout.text x := by simp [realsText, List.intercalate]
          have stops : Stops (']' :: rest) := by
            rintro c ⟨⟩
            decide
          rw [text, (realText x).value_append stops]
          rfl
      | cons y xs =>
          have stops : Stops (',' :: ' ' :: (realsText (y :: xs) ++ ']' :: rest)) := by
            rintro c ⟨⟩
            decide
          have length := congrArg List.length (realsText_cons_cons x y xs)
          have others : elements (value depth) fuel (' ' :: (realsText (y :: xs) ++ ']' :: rest)) =
              some ((y :: xs).map .real, rest) := by
            refine ih (((opens_realsText y xs).append _).skipLines_eq) ?_
            simp only [List.length_append, List.length_cons] at length
            omega
          rw [realsText_cons_cons, List.append_assoc, List.cons_append, List.cons_append,
            (realText x).value_append stops]
          show (elements (value depth) fuel (' ' :: (realsText (y :: xs) ++ ']' :: rest))).bind _ = _
          rw [others]
          rfl

theorem value_reals (xs : List Float) (rest : List Char) (depth : Nat) :
    value (depth + 1) ('[' :: (realsText xs ++ ']' :: rest)) =
      some (.list (xs.map .real), rest) := by
  have front : skipLines (realsText xs ++ ']' :: rest) = realsText xs ++ ']' :: rest := by
    cases xs with
    | nil => rfl
    | cons x xs => exact ((opens_realsText x xs).append _).skipLines_eq
  have read : elements (value depth) ((realsText xs ++ ']' :: rest).length + 1)
      (realsText xs ++ ']' :: rest) = some (xs.map .real, rest) :=
    elements_realsText xs depth front (by simp)
  show (elements (value depth) _ _).bind _ = _
  rw [read]
  rfl

/-! ## Legible values -/

/-- A legible value is read as what was written, where lists may stand. -/
theorem Legible.value_append {item : Item} (legible : Legible item) {text rest : List Char}
    (written : item.lineText = some text) (stops : Stops rest) (depth : Nat) :
    value (depth + 1) (text ++ rest) = some (item, rest) := by
  cases legible with
  | real x =>
      cases written
      exact (realText x).value_append stops (depth + 1)
  | whole i =>
      rw [Item.lineText] at written
      split at written
      · rename_i within
        cases written
        exact value_whole within.1 within.2 stops (depth + 1)
      · cases written
  | truth b =>
      cases written
      exact value_truth b rest (depth + 1)
  | text nonempty plain =>
      cases written
      exact value_text nonempty plain rest (depth + 1)
  | reals xs =>
      rw [lineText_reals] at written
      cases written
      rw [List.cons_append, List.append_assoc]
      exact value_reals xs rest depth

/-- No value begins with a blank. -/
theorem Legible.begins {item : Item} (legible : Legible item) {text : List Char}
    (written : item.lineText = some text) : Begins text := by
  cases legible with
  | real x =>
      cases written
      exact (realText x).opens.begins
  | whole i =>
      rw [Item.lineText] at written
      split at written
      · cases written
        rw [Decimal.intText]
        split
        · exact ⟨'-', _, rfl, by decide⟩
        · exact (whole_natText _).opens.begins
      · cases written
  | truth b =>
      cases written
      cases b with
      | true => exact ⟨'t', _, rfl, by decide⟩
      | false => exact ⟨'f', _, rfl, by decide⟩
  | text =>
      cases written
      exact ⟨'\x22', _, rfl, by decide⟩
  | reals xs =>
      rw [lineText_reals] at written
      cases written
      exact ⟨'[', _, rfl, by decide⟩

/-! ## Keys -/

/-- A key that needs no quotes. -/
structure Bare (key : String) : Prop where
  nonempty : key.toList ≠ []
  bare : ∀ c ∈ key.toList, isBare c = true

instance (key : String) : Decidable (Bare key) :=
  decidable_of_iff (key.toList ≠ [] ∧ key.toList.all isBare = true)
    ⟨fun ⟨nonempty, bare⟩ => ⟨nonempty, List.all_eq_true.1 bare⟩,
      fun ⟨nonempty, bare⟩ => ⟨nonempty, List.all_eq_true.2 bare⟩⟩

theorem Bare.keyText_eq {key : String} (bare : Bare key) : keyText key = key.toList := by
  have all : key.toList.all isBare = true := List.all_eq_true.2 bare.bare
  have some : key.isEmpty = false := by
    rw [Bool.eq_false_iff, ne_eq, String.isEmpty_iff]
    exact fun none => bare.nonempty (String.toList_eq_nil_iff.2 none)
  rw [keyText, some, all]
  rfl

theorem ne_of_isBare {c d : Char} (bare : isBare c = true) (other : isBare d = false) : c ≠ d := by
  rintro rfl
  rw [bare] at other
  cases other

theorem Bare.head {key : String} (bare : Bare key) :
    ∃ c cs, key.toList = c :: cs ∧ isBare c = true := by
  obtain ⟨nonempty, all⟩ := bare
  cases chars : key.toList with
  | nil => exact absurd chars nonempty
  | cons c cs => exact ⟨c, cs, rfl, all c (by simp [chars])⟩

/-- No blanks stand before a key. -/
theorem Bare.skipBlanks_append {key : String} (bare : Bare key) (rest : List Char) :
    skipBlanks (key.toList ++ rest) = key.toList ++ rest := by
  obtain ⟨c, cs, chars, first⟩ := bare.head
  have space := ne_of_isBare first (show isBare ' ' = false by decide)
  have tab := ne_of_isBare first (show isBare '\t' = false by decide)
  rw [chars]
  exact List.dropWhile_cons_of_neg (by simp [isBlank, space, tab])

/-- A key ends where something stands that is part of no bare key. -/
theorem Bare.keyPart_append {key : String} (bare : Bare key) {c : Char} (ends : isBare c = false)
    (rest : List Char) : keyPart (key.toList ++ c :: rest) = some (key, c :: rest) := by
  have inside : (key.toList ++ c :: rest).takeWhile isBare = key.toList := by
    rw [List.takeWhile_append_of_pos bare.bare, List.takeWhile_cons_of_neg (by simp [ends]),
      List.append_nil]
  have quotes : ∀ quote, isBare quote = false → ∀ s, key.toList ++ c :: rest ≠ quote :: s := by
    intro quote other s same
    obtain ⟨d, ds, chars, first⟩ := bare.head
    rw [chars] at same
    exact ne_of_isBare first other (List.cons.inj same).1
  rw [keyPart, inside]
  · rw [if_neg (by simpa using bare.nonempty), List.drop_left]
    simp
  · exact quotes '\x22' (by decide)
  · exact quotes '\x27' (by decide)

/-- A key by itself. -/
theorem Bare.key_append {key : String} (bare : Bare key) (room : Nat) (rest : List Char) :
    Toml.key (room + 1) (key.toList ++ ' ' :: '=' :: rest) = some ([key], '=' :: rest) := by
  rw [Toml.key, bare.skipBlanks_append, bare.keyPart_append (by decide)]
  rfl

/-- A path with points between its keys, as it stands in a header. -/
def pathText (path : List String) : List Char :=
  ['.'].intercalate (path.map keyText)

theorem pathText_cons_cons (key next : String) (path : List String) :
    pathText (key :: next :: path) = keyText key ++ '.' :: pathText (next :: path) := by
  simp [pathText, List.intercalate]

theorem pathText_head {path : List String} (bare : ∀ key ∈ path, Bare key) (nonempty : path ≠ []) :
    ∃ c cs, pathText path = c :: cs ∧ isBare c = true := by
  cases path with
  | nil => exact absurd rfl nonempty
  | cons key path =>
      have key_bare := bare key List.mem_cons_self
      obtain ⟨c, cs, chars, first⟩ := key_bare.head
      cases path with
      | nil => exact ⟨c, cs, by simp [pathText, key_bare.keyText_eq, chars], first⟩
      | cons next path =>
          refine ⟨c, cs ++ '.' :: pathText (next :: path), ?_, first⟩
          rw [pathText_cons_cons, key_bare.keyText_eq, chars]
          rfl

theorem key_pathText {path : List String} (bare : ∀ key ∈ path, Bare key) (nonempty : path ≠ [])
    {room : Nat} (within : path.length ≤ room) (rest : List Char) :
    Toml.key room (pathText path ++ ']' :: rest) = some (path, ']' :: rest) := by
  induction path generalizing room with
  | nil => exact absurd rfl nonempty
  | cons key path ih =>
      obtain ⟨room, rfl⟩ := Nat.exists_eq_succ_of_ne_zero (Nat.ne_of_gt (Nat.zero_lt_of_lt within))
      have first := bare key List.mem_cons_self
      cases path with
      | nil =>
          have text : pathText [key] = key.toList := by simp [pathText, first.keyText_eq]
          rw [text, Toml.key, first.skipBlanks_append, first.keyPart_append (by decide)]
          rfl
      | cons next path =>
          have others := ih (fun key mem => bare key (List.mem_cons_of_mem _ mem)) (by simp)
            (Nat.le_of_succ_le_succ within)
          rw [pathText_cons_cons, first.keyText_eq, List.append_assoc, List.cons_append, Toml.key,
            first.skipBlanks_append, first.keyPart_append (by decide)]
          show (Toml.key room (pathText (next :: path) ++ ']' :: rest)).bind _ = _
          rw [others]
          rfl

/-! ## Statements -/

/-- The line of a key with the text of its value. -/
def valueLine (key : String) (text : List Char) : List Char :=
  keyText key ++ [' ', '=', ' '] ++ text

/-- The line of a header. -/
def headerLine (path : List String) : List Char :=
  '[' :: (pathText path ++ [']'])

theorem lineEnd?_newline (rest : List Char) : lineEnd? ('\n' :: rest) = some rest := rfl

theorem Bare.pair_append {key : String} (bare : Bare key) {item : Item} (legible : Legible item)
    {text rest : List Char} (written : item.lineText = some text) (stops : Stops rest) :
    pair (value depthLimit) (valueLine key text ++ rest) = some (([key], item), rest) := by
  have parts : Toml.key depthLimit (key.toList ++ ' ' :: '=' :: ' ' :: (text ++ rest)) =
      some ([key], '=' :: ' ' :: (text ++ rest)) := bare.key_append 78 _
  have blank : skipBlanks (' ' :: (text ++ rest)) = text ++ rest :=
    (legible.begins written).skipBlanks_append rest
  have line : valueLine key text ++ rest = key.toList ++ ' ' :: '=' :: ' ' :: (text ++ rest) := by
    simp [valueLine, bare.keyText_eq]
  have read : value depthLimit (text ++ rest) = some (item, rest) :=
    legible.value_append written stops 78
  rw [line, pair, parts]
  simp only [Option.bind_eq_bind, Option.bind_some, char?, if_true, blank, read]
  rfl

/-- A line with a value puts it into the table that was opened last. -/
theorem statement_valueLine (d : Draft) {key : String} (bare : Bare key) {item : Item}
    (legible : Legible item) {text : List Char} (written : item.lineText = some text)
    (rest : List Char) :
    statement d (valueLine key text ++ '\n' :: rest) =
      (d.insert [key] item).map fun d => (d, rest) := by
  have read := bare.pair_append legible written (stops_newline rest)
  have bracket : ∀ s, valueLine key text ++ '\n' :: rest ≠ '[' :: s := by
    intro s same
    obtain ⟨c, cs, chars, first⟩ := bare.head
    rw [valueLine, bare.keyText_eq, chars] at same
    exact ne_of_isBare first (by decide) (List.cons.inj same).1
  rw [statement, read]
  · simp only [Option.bind_eq_bind, Option.bind_some, lineEnd?_newline]
    cases d.insert [key] item <;> rfl
  · exact fun s => bracket _
  · exact bracket

/-- A header opens the table at its path. -/
theorem statement_headerLine (d : Draft) {path : List String} (bare : ∀ key ∈ path, Bare key)
    (nonempty : path ≠ []) (within : path.length ≤ depthLimit) (rest : List Char) :
    statement d (headerLine path ++ '\n' :: rest) = (d.openTable path).map fun d => (d, rest) := by
  have read := key_pathText bare nonempty within ('\n' :: rest)
  have line : headerLine path ++ '\n' :: rest = '[' :: (pathText path ++ ']' :: '\n' :: rest) := by
    simp [headerLine]
  have bracket : ∀ s, pathText path ++ ']' :: '\n' :: rest ≠ '[' :: s := by
    intro s same
    obtain ⟨c, cs, chars, first⟩ := pathText_head bare nonempty
    rw [chars] at same
    exact ne_of_isBare first (by decide) (List.cons.inj same).1
  rw [line, statement, read]
  · simp only [Option.bind_eq_bind, Option.bind_some, char?, if_true, lineEnd?_newline]
    cases d.openTable path <;> rfl
  · exact bracket

end Toml

end AugmentedLagrangian

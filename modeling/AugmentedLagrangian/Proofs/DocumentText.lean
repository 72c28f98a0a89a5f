/- # AugmentedLagrangian.Proofs.DocumentText — documents are read as what was written

The reader goes through a document line by line and keeps a draft.  `Reads` says which draft a list
of lines leads to from another.  A draft is looked at through the table that was opened last: `plug`
puts the entries of that table back into those around it, so that a line with a value adds to the
entries and a header opens a table behind them.

A table is `Tidy` if its values stand before its tables, its keys are distinct and need no quotes,
and its values are legible.  Then what `write?` writes is read as the same entries
(`document?_write?`).
-/
import AugmentedLagrangian.Proofs.LineText

namespace AugmentedLagrangian

set_option autoImplicit false

namespace Toml

/-! ## Drafts -/

/-- Entries of a table in those around it, outermost first: a table stands behind the entries before
it, under its key. -/
def plug : List (String × Entries) → Entries → Entries
  | [], es => es
  | (key, before) :: around, es => before ++ [(key, .table .headed (plug around es))]

/-- No key stands for the table around and for something before it. -/
def Fresh (around : List (String × Entries)) : Prop :=
  ∀ level ∈ around, level.1 ∉ level.2.map Prod.fst

theorem plug_concat (around : List (String × Entries)) (key : String) (before es : Entries) :
    plug (around ++ [(key, before)]) es = plug around (before ++ [(key, .table .headed es)]) := by
  induction around with
  | nil => rfl
  | cons level around ih => rw [List.cons_append, plug, plug, ih]

theorem find?_eq_none {es : Entries} {key : String} (new : key ∉ es.map Prod.fst) :
    es.find? key = none := by
  rw [Entries.find?, List.lookup_eq_none_iff]
  intro e mem
  rw [bne_iff_ne]
  rintro rfl
  exact new (List.mem_map_of_mem mem)

theorem find?_concat {es : Entries} {key : String} (new : key ∉ es.map Prod.fst) (item : Item) :
    Entries.find? (es ++ [(key, item)]) key = some item := by
  have none := find?_eq_none new
  rw [Entries.find?] at none ⊢
  rw [List.lookup_append, none]
  simp

theorem replace_concat {es : Entries} {key : String} (new : key ∉ es.map Prod.fst)
    (old item : Item) :
    Entries.replace key item (es ++ [(key, old)]) = es ++ [(key, item)] := by
  have others : Entries.replace key item es = es := by
    rw [Entries.replace, List.map_congr_left, List.map_id]
    intro e mem
    refine if_neg ?_
    rintro rfl
    exact new (List.mem_map_of_mem mem)
  rw [Entries.replace] at others ⊢
  rw [List.map_append, others]
  simp

/-- Editing at the path of the tables around edits the entries. -/
theorem alterAt_plug (edit : Origin → Entries → Option Entries)
    {around : List (String × Entries)} (fresh : Fresh around) (es : Entries) :
    Entries.alterAt .implied edit (around.map Prod.fst) .headed (plug around es) =
      (edit .headed es).map (plug around) := by
  induction around with
  | nil => exact Option.map_id'.symm
  | cons level around ih =>
      obtain ⟨key, before⟩ := level
      have new : key ∉ before.map Prod.fst := fresh _ List.mem_cons_self
      have inner := ih fun level mem => fresh level (List.mem_cons_of_mem _ mem)
      rw [List.map_cons, plug, Entries.alterAt, find?_concat new]
      simp only [inner, replace_concat new]
      cases edit .headed es <;> rfl

/-- A line with a value adds it to the entries. -/
theorem insert_plug {around : List (String × Entries)} (fresh : Fresh around) {es : Entries}
    {key : String} (new : key ∉ es.map Prod.fst) (item : Item) :
    Draft.insert ⟨plug around es, around.map Prod.fst⟩ [key] item =
      some ⟨plug around (es ++ [(key, item)]), around.map Prod.fst⟩ := by
  have edit : Entries.insertDotted [] key item .headed es = some (es ++ [(key, item)]) := by
    rw [Entries.insertDotted, Entries.alterAt, if_neg (by decide), Entries.insertNew,
      find?_eq_none new]
  have whole := alterAt_plug (fun origin es => es.insertDotted [] key item origin) fresh es
  rw [edit] at whole
  show (do
    let root ← Entries.alterAt .implied (fun origin es => es.insertDotted [] key item origin)
      (around.map Prod.fst) .headed (plug around es)
    pure (⟨root, around.map Prod.fst⟩ : Draft)) = _
  rw [whole]
  rfl

/-- A header opens a table behind the entries. -/
theorem openTable_plug {around : List (String × Entries)} (fresh : Fresh around) {es : Entries}
    {key : String} (new : key ∉ es.map Prod.fst) (path : List String) :
    Draft.openTable ⟨plug around es, path⟩ (around.map Prod.fst ++ [key]) =
      some ⟨plug (around ++ [(key, es)]) [], (around ++ [(key, es)]).map Prod.fst⟩ := by
  have whole : Entries.openTable (around.map Prod.fst) key (plug around es) =
      some (plug around (es ++ [(key, .table .headed [])])) := by
    rw [Entries.openTable, alterAt_plug _ fresh]
    simp only [find?_eq_none new]
    rfl
  have split : splitKey (around.map Prod.fst ++ [key]) = (around.map Prod.fst, key) := by
    simp [splitKey]
  rw [Draft.openTable, split, plug_concat, List.map_append]
  simp only [whole]
  rfl

/-! ## What is written -/

/-- Tables as entries. -/
def subtables (tables : List (String × Entries)) : Entries :=
  tables.map fun t => (t.1, .table .headed t.2)

theorem map_fst_subtables (tables : List (String × Entries)) :
    (subtables tables).map Prod.fst = tables.map Prod.fst := by
  simp [subtables]

namespace Legible

variable {item : Item}

/-- A legible value has a line of its own. -/
theorem ownLines_cons (legible : Legible item) {key : String} {es : Entries}
    {lines : List (List Char)} (written : ownLines ((key, item) :: es) = some lines) :
    ∃ text more, item.lineText = some text ∧ ownLines es = some more ∧
      lines = valueLine key text :: more := by
  have line : ownLines ((key, item) :: es) = (do
      let text ← item.lineText
      let lines ← ownLines es
      return (keyText key ++ " = ".toList ++ text) :: lines) := by
    cases legible <;> rfl
  rw [line] at written
  cases here : item.lineText with
  | none =>
      rw [here] at written
      cases written
  | some text =>
      cases rest : ownLines es with
      | none =>
          rw [here, rest] at written
          cases written
      | some more =>
          rw [here, rest] at written
          cases written
          exact ⟨text, more, rfl, rfl, rfl⟩

/-- A legible value has no sections. -/
theorem sections_eq (legible : Legible item) (path : List String) :
    item.sections path = some [] := by
  cases legible <;> rfl

end Legible

/-- Tables have no lines of their own. -/
theorem ownLines_append {leaves : Entries} (legible : ∀ e ∈ leaves, Legible e.2)
    (tables : List (String × Entries)) :
    ownLines (leaves ++ subtables tables) = ownLines leaves := by
  induction leaves with
  | nil =>
      induction tables with
      | nil => rfl
      | cons t tables ih => exact ih
  | cons leaf leaves ih =>
      obtain ⟨key, item⟩ := leaf
      have others := ih fun e mem => legible e (List.mem_cons_of_mem _ mem)
      have here : Legible item := legible (key, item) List.mem_cons_self
      cases here <;> rw [List.cons_append, ownLines, ownLines, others] <;> simp

/-- Values have no sections. -/
theorem sectionsBelow_append {leaves : Entries} (legible : ∀ e ∈ leaves, Legible e.2)
    (path : List String) (es : Entries) :
    sectionsBelow path (leaves ++ es) = sectionsBelow path es := by
  induction leaves with
  | nil => rfl
  | cons leaf leaves ih =>
      have others := ih fun e mem => legible e (List.mem_cons_of_mem _ mem)
      have here := legible leaf List.mem_cons_self
      rw [List.cons_append, sectionsBelow, here.sections_eq, others]
      cases sectionsBelow path es <;> rfl

/-- The section of a table of values, if it has values or is empty. -/
theorem ownSection_eq {leaves : Entries} {tables : List (String × Entries)} {key : String}
    (legible : ∀ e ∈ leaves, Legible e.2) {path : List String}
    (own : ∀ e ∈ (leaves ++ subtables tables).head?, Legible e.2)
    {sections : List (List (List Char))}
    (written : ownSection (path ++ [key]) (leaves ++ subtables tables) = some sections) :
    ∃ lines, ownLines leaves = some lines ∧
      sections = [headerLine (path ++ [key]) :: lines] := by
  rw [ownSection, ownLines_append legible] at written
  obtain ⟨lines, values, written⟩ := Option.bind_eq_some_iff.1 written
  have named : (path ++ [key]).isEmpty = false := by simp
  have header : headerLines (path ++ [key]) = [headerLine (path ++ [key])] := by
    cases path <;> rfl
  -- a table without lines is empty, since it begins with a value if it begins at all
  have kept : (lines.isEmpty && ((path ++ [key]).isEmpty ||
      !(leaves ++ subtables tables).isEmpty)) = false := by
    cases leaves with
    | nil =>
        cases tables with
        | nil => simp [subtables]
        | cons t tables => nomatch own _ rfl
    | cons leaf leaves =>
        obtain ⟨text, more, -, -, rfl⟩ :=
          (legible leaf List.mem_cons_self).ownLines_cons values
        rfl
  rw [kept, header] at written
  cases written
  exact ⟨lines, values, rfl⟩

/-! ## Reading lines -/

/-- Lines with their ends. -/
def linesText (lines : List (List Char)) : List Char :=
  lines.flatMap fun line => line ++ ['\n']

theorem linesText_append (lines more : List (List Char)) :
    linesText (lines ++ more) = linesText lines ++ linesText more :=
  List.flatMap_append

/-- The lines lead from one draft to another.  Each statement takes one step, and is no shorter than
one character and the end of its line. -/
def Reads (lines : List (List Char)) (d d' : Draft) : Prop :=
  ∃ n, 2 * n ≤ (linesText lines).length ∧ ∀ fuel rest,
    statements (n + fuel) d (linesText lines ++ rest) = statements fuel d' rest

namespace Reads

theorem nil (d : Draft) : Reads [] d d :=
  ⟨0, Nat.zero_le _, fun fuel rest => by rw [Nat.zero_add]; rfl⟩

theorem append {lines more : List (List Char)} {d d' d'' : Draft} (first : Reads lines d d')
    (second : Reads more d' d'') : Reads (lines ++ more) d d'' := by
  obtain ⟨n, short, reads⟩ := first
  obtain ⟨m, short', reads'⟩ := second
  refine ⟨n + m, ?_, fun fuel rest => ?_⟩
  · rw [linesText_append, List.length_append]
    omega
  · rw [linesText_append, List.append_assoc, Nat.add_assoc, reads, reads']

/-- Empty lines do not count. -/
theorem empty (d : Draft) : Reads [[]] d d := by
  refine ⟨0, Nat.zero_le _, fun fuel rest => ?_⟩
  rw [Nat.zero_add]
  cases fuel <;> rfl

/-- A line that begins like a statement, and is one. -/
theorem line {line : List Char} {d d' : Draft} (opens : Opens line)
    (reads : ∀ rest, statement d (line ++ '\n' :: rest) = some (d', rest)) :
    Reads [line] d d' := by
  have solid (rest : List Char) : skipLines (line ++ '\n' :: rest) = line ++ '\n' :: rest :=
    (opens.append _).skipLines_eq
  obtain ⟨c, s, rfl, first⟩ := opens
  refine ⟨1, by simp [linesText], fun fuel rest => ?_⟩
  have text : linesText [c :: s] ++ rest = c :: s ++ '\n' :: rest := by simp [linesText]
  rw [text, Nat.add_comm, statements]
  simp only [solid, reads]
  rfl

variable {around : List (String × Entries)} {es : Entries} {key : String}

/-- A line with a value adds it. -/
theorem value (fresh : Fresh around) (new : key ∉ es.map Prod.fst) (bare : Bare key) {item : Item}
    (legible : Legible item) {text : List Char} (written : item.lineText = some text) :
    Reads [valueLine key text] ⟨plug around es, around.map Prod.fst⟩
      ⟨plug around (es ++ [(key, item)]), around.map Prod.fst⟩ := by
  refine line ?_ fun rest => ?_
  · obtain ⟨c, cs, chars, first⟩ := bare.head
    refine ⟨c, cs ++ [' ', '=', ' '] ++ text, ?_, by simp [isOpening, first]⟩
    rw [valueLine, bare.keyText_eq, chars]
    rfl
  · rw [statement_valueLine _ bare legible written, insert_plug fresh new]
    rfl

/-- A header opens a table. -/
theorem header (fresh : Fresh around) (new : key ∉ es.map Prod.fst)
    (bare : ∀ k ∈ around.map Prod.fst ++ [key], Bare k) (within : around.length < depthLimit)
    (path : List String) :
    Reads [headerLine (around.map Prod.fst ++ [key])] ⟨plug around es, path⟩
      ⟨plug (around ++ [(key, es)]) [], (around ++ [(key, es)]).map Prod.fst⟩ := by
  refine line ⟨'[', _, rfl, by decide⟩ fun rest => ?_
  rw [statement_headerLine _ bare (by simp) (by simpa using within), openTable_plug fresh new]
  rfl

/-- The lines of values add them all. -/
theorem values {leaves : Entries} {lines : List (List Char)}
    (written : ownLines leaves = some lines) (fresh : Fresh around)
    (distinct : (es.map Prod.fst ++ leaves.map Prod.fst).Nodup)
    (bare : ∀ k ∈ leaves.map Prod.fst, Bare k) (legible : ∀ e ∈ leaves, Legible e.2) :
    Reads lines ⟨plug around es, around.map Prod.fst⟩
      ⟨plug around (es ++ leaves), around.map Prod.fst⟩ := by
  induction leaves generalizing es lines with
  | nil =>
      cases written
      rw [List.append_nil]
      exact nil _
  | cons leaf leaves ih =>
      obtain ⟨k, item⟩ := leaf
      have item_legible : Legible item := legible (k, item) List.mem_cons_self
      obtain ⟨text, more, here, rest, rfl⟩ := item_legible.ownLines_cons written
      have new : k ∉ es.map Prod.fst := fun mem =>
        (List.nodup_append.1 distinct).2.2 k mem k (by simp) rfl
      have others : ((es ++ [(k, item)]).map Prod.fst ++ leaves.map Prod.fst).Nodup := by
        simpa using distinct
      have first := value fresh new (bare k (by simp)) item_legible here
      have second := ih rest others (fun k mem => bare k (by simp [mem]))
        fun e mem => legible e (List.mem_cons_of_mem _ mem)
      rw [List.append_assoc] at second
      exact first.append second

end Reads

/-! ## Whole documents -/

/-- A table in a document, with at most so many levels: values before tables, and of these no one
that holds only tables, distinct keys that need no quotes, and legible values. -/
inductive Tidy : (levels : Nat) → Entries → Prop
  | mk {levels : Nat} {leaves : Entries} {tables : List (String × Entries)}
      (distinct : (leaves.map Prod.fst ++ tables.map Prod.fst).Nodup)
      (bare : ∀ key ∈ leaves.map Prod.fst ++ tables.map Prod.fst, Bare key)
      (legible : ∀ e ∈ leaves, Legible e.2)
      (own : ∀ t ∈ tables, ∀ e ∈ t.2.head?, Legible e.2)
      (below : ∀ t ∈ tables, Tidy levels t.2) :
      Tidy (levels + 1) (leaves ++ subtables tables)

/-- Sections with an empty line in front of each. -/
def spaced (sections : List (List (List Char))) : List (List Char) :=
  sections.flatMap fun lines => [] :: lines

/-- The sections of the table are read as the table, wherever it stands. -/
def ReadsTable (levels : Nat) (es : Entries) : Prop :=
  ∀ {around : List (String × Entries)} {before : Entries} {key : String}
    {sections : List (List (List Char))}, Fresh around → key ∉ before.map Prod.fst →
    (∀ k ∈ around.map Prod.fst ++ [key], Bare k) → around.length + levels ≤ depthLimit →
    (Item.table .headed es).sections (around.map Prod.fst ++ [key]) = some sections →
    ∀ path, ∃ path', Reads (spaced sections) ⟨plug around before, path⟩
      ⟨plug around (before ++ [(key, .table .headed es)]), path'⟩

/-- The sections below a table are read as its tables. -/
theorem Reads.tables {levels : Nat} {around : List (String × Entries)} {before : Entries}
    {tables : List (String × Entries)} {sections : List (List (List Char))} (fresh : Fresh around)
    (distinct : (before.map Prod.fst ++ tables.map Prod.fst).Nodup)
    (bare : ∀ k ∈ around.map Prod.fst ++ tables.map Prod.fst, Bare k)
    (within : around.length + levels ≤ depthLimit)
    (each : ∀ t ∈ tables, ReadsTable levels t.2)
    (written : sectionsBelow (around.map Prod.fst) (subtables tables) = some sections)
    (path : List String) :
    ∃ path', Reads (spaced sections) ⟨plug around before, path⟩
      ⟨plug around (before ++ subtables tables), path'⟩ := by
  induction tables generalizing before sections path with
  | nil =>
      cases written
      rw [subtables, List.map_nil, List.append_nil]
      exact ⟨path, .nil _⟩
  | cons t tables ih =>
      obtain ⟨key, es⟩ := t
      obtain ⟨here, rest, first, others, rfl⟩ : ∃ here rest,
          (Item.table .headed es).sections (around.map Prod.fst ++ [key]) = some here ∧
          sectionsBelow (around.map Prod.fst) (subtables tables) = some rest ∧
          sections = here ++ rest := by
        obtain ⟨here, first, written⟩ := Option.bind_eq_some_iff.1 written
        obtain ⟨rest, others, written⟩ := Option.bind_eq_some_iff.1 written
        cases written
        exact ⟨here, rest, first, others, rfl⟩
      have new : key ∉ before.map Prod.fst := fun mem =>
        (List.nodup_append.1 distinct).2.2 key mem key (by simp) rfl
      have later : ((before ++ [(key, Item.table .headed es)]).map Prod.fst ++
          tables.map Prod.fst).Nodup := by
        simpa using distinct
      obtain ⟨path', reads⟩ := each (key, es) List.mem_cons_self fresh new
        (fun k mem => bare k (by simp at mem ⊢; tauto)) within first path
      obtain ⟨path'', reads'⟩ := ih later (fun k mem => bare k (by simp at mem ⊢; tauto))
        (fun t mem => each t (List.mem_cons_of_mem _ mem)) others path'
      refine ⟨path'', ?_⟩
      have both := reads.append reads'
      rw [List.append_assoc] at both
      rw [spaced, List.flatMap_append]
      exact both

/-- A tidy table that begins with a value is read as it was written. -/
theorem Tidy.readsTable {levels : Nat} {es : Entries} (tidy : Tidy levels es)
    (own : ∀ e ∈ es.head?, Legible e.2) : ReadsTable levels es := by
  induction tidy with
  | @mk levels leaves tables distinct bare legible heads _ ih =>
      intro around before key sections fresh new keys within written path
      obtain ⟨mine, below, here, rest, rfl⟩ : ∃ mine below,
          ownSection (around.map Prod.fst ++ [key]) (leaves ++ subtables tables) = some mine ∧
          sectionsBelow (around.map Prod.fst ++ [key]) (leaves ++ subtables tables) = some below ∧
          sections = mine ++ below := by
        rw [Item.sections] at written
        obtain ⟨mine, here, written⟩ := Option.bind_eq_some_iff.1 written
        obtain ⟨below, rest, written⟩ := Option.bind_eq_some_iff.1 written
        cases written
        exact ⟨mine, below, here, rest, rfl⟩
      obtain ⟨lines, values, rfl⟩ := ownSection_eq legible own here
      rw [sectionsBelow_append legible] at rest
      have inside : Fresh (around ++ [(key, before)]) := by
        intro level mem
        rcases List.mem_append.1 mem with mem | mem
        · exact fresh level mem
        · cases List.mem_singleton.1 mem
          exact new
      have path_eq : around.map Prod.fst ++ [key] = (around ++ [(key, before)]).map Prod.fst := by
        simp
      have opened := Reads.header fresh new keys (by omega) path
      have filled : Reads lines ⟨plug (around ++ [(key, before)]) [], _⟩
          ⟨plug (around ++ [(key, before)]) ([] ++ leaves), _⟩ := Reads.values values inside
        (by simpa using (List.nodup_append.1 distinct).1)
        (fun k mem => bare k (List.mem_append_left _ mem)) legible
      rw [path_eq] at rest
      obtain ⟨path', reads⟩ := Reads.tables inside distinct
        (fun k mem => (List.mem_append.1 mem).elim (fun mem => keys k (path_eq ▸ mem))
          fun mem => bare k (List.mem_append_right _ mem))
        (by simp; omega) (fun t mem => ih t mem (heads t mem)) rest _
      refine ⟨path', ?_⟩
      have all := (Reads.empty _).append (opened.append (filled.append reads))
      rw [plug_concat] at all
      simpa [spaced] using all

theorem Tidy.reads {levels : Nat} {es : Entries} (tidy : Tidy (levels + 1) es)
    (within : levels ≤ depthLimit) {sections : List (List (List Char))}
    (written : (Item.table .headed es).sections [] = some sections) :
    ∃ path, Reads (spaced sections) {} ⟨es, path⟩ := by
  cases tidy with
  | @mk _ leaves tables distinct bare legible heads below =>
      rw [Item.sections] at written
      obtain ⟨mine, here, written⟩ := Option.bind_eq_some_iff.1 written
      obtain ⟨rest, others, written⟩ := Option.bind_eq_some_iff.1 written
      cases written
      rw [sectionsBelow_append legible] at others
      have outermost : Fresh [] := fun level mem => nomatch mem
      have each : ∀ t ∈ tables, ReadsTable levels t.2 := fun t mem =>
        (below t mem).readsTable (heads t mem)
      obtain ⟨path, reads⟩ := Reads.tables outermost distinct
        (fun k mem => bare k (List.mem_append_right _ mem)) (by simpa using within) each others []
      refine ⟨path, ?_⟩
      rw [ownSection, ownLines_append legible] at here
      obtain ⟨lines, values, here⟩ := Option.bind_eq_some_iff.1 here
      have filled : Reads lines ⟨plug [] [], _⟩ ⟨plug [] ([] ++ leaves), _⟩ := Reads.values values
        outermost
        (by simpa using (List.nodup_append.1 distinct).1)
        (fun k mem => bare k (List.mem_append_left _ mem)) legible
      have all := filled.append reads
      split at here
      · -- no values stand before the tables
        rename_i none
        cases here
        rw [List.isEmpty_iff.1 (Bool.and_eq_true_iff.1 none).1] at all
        exact all
      · cases here
        have spread := (Reads.empty _).append all
        simpa [spaced, headerLines, plug] using spread

/-- Sections with empty lines between them, and one more in front. -/
theorem linesText_spaced (sections : List (List (List Char))) (some : sections ≠ []) :
    linesText (spaced sections) = '\n' :: ['\n'].intercalate (sections.map linesText) := by
  induction sections with
  | nil => exact absurd rfl some
  | cons lines sections ih =>
      cases sections with
      | nil => simp [spaced, linesText, List.intercalate]
      | cons next sections =>
          have others := ih (by simp)
          have front : linesText (spaced (lines :: next :: sections)) =
              '\n' :: (linesText lines ++ linesText (spaced (next :: sections))) := by
            simp [spaced, linesText]
          rw [front, others]
          simp [List.intercalate]

/-- No document begins with another mark. -/
theorem statements_mark (fuel : Nat) (d : Draft) (s : List Char) :
    statements fuel d ('\ufeff' :: s) = none := by
  cases fuel with
  | zero => rfl
  | succ fuel => rfl

theorem statements_newline (fuel : Nat) (d : Draft) (s : List Char) :
    statements fuel d ('\n' :: s) = statements fuel d s := by
  cases fuel <;> rfl

/-- What is written of a tidy table is read as the table. -/
theorem document?_write? {levels : Nat} {es : Entries} (tidy : Tidy (levels + 1) es)
    (within : levels ≤ depthLimit) {text : String} (written : write? es = some text) :
    document? text = some es := by
  obtain ⟨sections, parts, written⟩ := Option.bind_eq_some_iff.1 written
  obtain ⟨path, n, short, reads⟩ := tidy.reads within parts
  generalize chars : ['\n'].intercalate (sections.map linesText) = cs
  have document : text.toList = cs := by
    rw [← Option.some.inj written, String.toList_ofList]
    exact chars
  have same : ∀ fuel, statements fuel {} (linesText (spaced sections)) = statements fuel {} cs := by
    intro fuel
    cases sections with
    | nil => rw [← chars]; rfl
    | cons lines sections => rw [linesText_spaced _ (by simp), statements_newline, chars]
  have length : (linesText (spaced sections)).length ≤ cs.length + 1 := by
    cases sections with
    | nil => simp [spaced, linesText]
    | cons lines sections => rw [linesText_spaced _ (by simp), List.length_cons, chars]
  have read : statements (cs.length + 1) {} cs = some es := by
    obtain ⟨fuel, enough⟩ : ∃ fuel, cs.length + 1 = n + (fuel + 1) := ⟨cs.length - n, by omega⟩
    have whole := reads (fuel + 1) []
    rw [List.append_nil, same, ← enough] at whole
    exact whole
  rw [document?, document]
  split
  · rw [statements_mark] at read
    cases read
  · exact read

end Toml

end AugmentedLagrangian

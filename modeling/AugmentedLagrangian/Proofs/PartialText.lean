/- # AugmentedLagrangian.Proofs.PartialText — settings given by a text

Any of the settings can be given by a text.  One such text has a header for every table, also for
one that holds only tables (`Headed`), and under it a line for every setting of the table that is
chosen (`exists_entries`).  So integers that fit and durations that are those of a number of seconds
are all that is needed (`Expressible`).

Whatever text gives the chosen settings, what is returned are the defaults with these settings in
their places, and they are refused if and as that is not admissible (`given_over_default`).
-/
import AugmentedLagrangian.Proofs.PartialDocument

namespace AugmentedLagrangian

set_option autoImplicit false

namespace Toml

/-! ## Tables under headers -/

/-- A legible value adds a line. -/
theorem Legible.ownLines_eq {item : Item} (legible : Legible item) {key : String} {es : Entries}
    {text : List Char} {lines : List (List Char)} (line : item.lineText = some text)
    (written : ownLines es = some lines) :
    ownLines ((key, item) :: es) = some (valueLine key text :: lines) := by
  cases legible <;> rw [ownLines, line, written] <;> first | rfl | simp

/-- Entries of a table, with at most so many levels: values that can be written before tables, and
distinct keys that need no quotes. -/
inductive Headed : (levels : Nat) → Entries → Prop
  | mk {levels : Nat} {leaves : Entries} {tables : List (String × Entries)}
      (distinct : (leaves.map Prod.fst ++ tables.map Prod.fst).Nodup)
      (bare : ∀ key ∈ leaves.map Prod.fst ++ tables.map Prod.fst, Bare key)
      (legible : ∀ e ∈ leaves, Legible e.2)
      (written : ∃ lines, ownLines leaves = some lines)
      (below : ∀ t ∈ tables, Headed levels t.2) :
      Headed (levels + 1) (leaves ++ subtables tables)

/-- Some lines are read as the table, wherever it stands. -/
def HasLines (levels : Nat) (es : Entries) : Prop :=
  ∀ {around : List (String × Entries)} {before : Entries} {key : String},
    Fresh around → key ∉ before.map Prod.fst → (∀ k ∈ around.map Prod.fst ++ [key], Bare k) →
    around.length + levels ≤ depthLimit →
    ∀ path, ∃ lines path', Reads lines ⟨plug around before, path⟩
      ⟨plug around (before ++ [(key, .table .headed es)]), path'⟩

/-- Some lines are read as tables one after the other. -/
theorem exists_lines_tables {levels : Nat} {around : List (String × Entries)} {before : Entries}
    {tables : List (String × Entries)} (fresh : Fresh around)
    (distinct : (before.map Prod.fst ++ tables.map Prod.fst).Nodup)
    (bare : ∀ k ∈ around.map Prod.fst ++ tables.map Prod.fst, Bare k)
    (within : around.length + levels ≤ depthLimit) (each : ∀ t ∈ tables, HasLines levels t.2)
    (path : List String) :
    ∃ lines path', Reads lines ⟨plug around before, path⟩
      ⟨plug around (before ++ subtables tables), path'⟩ := by
  induction tables generalizing before path with
  | nil =>
      rw [subtables, List.map_nil, List.append_nil]
      exact ⟨[], path, .nil _⟩
  | cons t tables ih =>
      obtain ⟨key, es⟩ := t
      have new : key ∉ before.map Prod.fst := fun mem =>
        (List.nodup_append.1 distinct).2.2 key mem key (by simp) rfl
      have later : ((before ++ [(key, Item.table .headed es)]).map Prod.fst ++
          tables.map Prod.fst).Nodup := by
        simpa using distinct
      obtain ⟨lines, path', reads⟩ := each (key, es) List.mem_cons_self fresh new
        (fun k mem => bare k (by simp at mem ⊢; tauto)) within path
      obtain ⟨more, path'', reads'⟩ := ih later (fun k mem => bare k (by simp at mem ⊢; tauto))
        (fun t mem => each t (List.mem_cons_of_mem _ mem)) path'
      have both := reads.append reads'
      rw [List.append_assoc] at both
      exact ⟨lines ++ more, path'', both⟩

/-- A header, the lines of the values, and the tables below. -/
theorem Headed.hasLines {levels : Nat} {es : Entries} (headed : Headed levels es) :
    HasLines levels es := by
  induction headed with
  | @mk levels leaves tables distinct bare legible written _ ih =>
      intro around before key fresh new keys within path
      obtain ⟨own, values⟩ := written
      have inside : Fresh (around ++ [(key, before)]) := by
        intro level mem
        rcases List.mem_append.1 mem with mem | mem
        · exact fresh level mem
        · cases List.mem_singleton.1 mem
          exact new
      have path_eq : around.map Prod.fst ++ [key] = (around ++ [(key, before)]).map Prod.fst := by
        simp
      have opened := Reads.header fresh new keys (by omega) path
      have filled : Reads own ⟨plug (around ++ [(key, before)]) [], _⟩
          ⟨plug (around ++ [(key, before)]) ([] ++ leaves), _⟩ := Reads.values values inside
        (by simpa using (List.nodup_append.1 distinct).1)
        (fun k mem => bare k (List.mem_append_left _ mem)) legible
      obtain ⟨rest, path', reads⟩ := exists_lines_tables inside distinct
        (fun k mem => (List.mem_append.1 mem).elim (fun mem => keys k (path_eq ▸ mem))
          fun mem => bare k (List.mem_append_right _ mem))
        (by simp; omega) ih _
      have all := opened.append (filled.append reads)
      rw [plug_concat] at all
      exact ⟨_, path', all⟩

/-- Lines that are read as entries are a document. -/
theorem Reads.document?_eq {lines : List (List Char)} {es : Entries} {path : List String}
    (reads : Reads lines {} ⟨es, path⟩) :
    document? (String.ofList (linesText lines)) = some es := by
  obtain ⟨n, short, reads⟩ := reads
  have read : statements ((linesText lines).length + 1) {} (linesText lines) = some es := by
    obtain ⟨fuel, enough⟩ : ∃ fuel, (linesText lines).length + 1 = n + (fuel + 1) :=
      ⟨(linesText lines).length - n, by omega⟩
    have whole := reads (fuel + 1) []
    rw [List.append_nil, ← enough] at whole
    exact whole
  rw [document?, String.toList_ofList]
  split
  · rename_i marked
    rw [marked, statements_mark] at read
    cases read
  · exact read

/-- There is a text for the entries. -/
theorem Headed.exists_text {levels : Nat} {es : Entries} (headed : Headed (levels + 1) es)
    (within : levels ≤ depthLimit) : ∃ text, document? text = some es := by
  cases headed with
  | @mk _ leaves tables distinct bare legible written below =>
      obtain ⟨own, values⟩ := written
      have outermost : Fresh [] := fun level mem => nomatch mem
      have filled : Reads own ⟨plug [] [], _⟩ ⟨plug [] ([] ++ leaves), _⟩ := Reads.values values
        outermost
        (by simpa using (List.nodup_append.1 distinct).1)
        (fun k mem => bare k (List.mem_append_left _ mem)) legible
      obtain ⟨rest, path, reads⟩ := exists_lines_tables outermost distinct
        (fun k mem => bare k (List.mem_append_right _ mem)) (by simpa using within)
        (fun t mem => (below t mem).hasLines) []
      exact ⟨_, (filled.append reads).document?_eq⟩

end Toml

open Toml (Item Entries Key Bare Legible Headed ownLines subtables map_fst_subtables)

/-! ## Values that can be written -/

/-- A document can give the value. -/
def Setting.Expressible : Setting → Prop
  | .count n => n < Toml.wholeLimit
  | .duration d => ∃ x, Duration.ofSeconds x = some d
  | _ => True

/-- The chosen ones of these settings have values that a document can give. -/
def AllExpressible (given : List String → Bool) (leaves : List (String × Option Setting)) : Prop :=
  ∀ leaf ∈ leaves, given [leaf.1] = true → ∃ v, leaf.2 = some v ∧ v.Expressible

/-- The chosen settings have values that a document can give. -/
structure SolverSettings.Expressible (given : List String → Bool) (c : SolverSettings Float) :
    Prop where
  outer : AllExpressible (fun path => given ("alm" :: path)) c.outer.leaves
  panoc : AllExpressible (fun path => given ("panoc" :: path)) c.panoc.leaves
  lipschitz : AllExpressible (fun path => given ("panoc" :: "lipschitz" :: path))
    c.panoc.lipschitz.leaves
  lbfgs : AllExpressible (fun path => given ("lbfgs" :: path)) c.lbfgs.leaves
  cbfgs : AllExpressible (fun path => given ("lbfgs" :: "cbfgs" :: path))
    c.lbfgs.cbfgs.leaves

/-- There is an item for the value that can be written. -/
theorem Setting.Expressible.exists_item {v : Setting} (expressible : v.Expressible) :
    ∃ item, v.ToldBy item ∧ Legible item ∧ ∃ text, item.lineText = some text := by
  cases v with
  | real x => exact ⟨.real x, .real x, .real x, _, rfl⟩
  | count n =>
      have small : n < Toml.wholeLimit := expressible
      have fits : -(Toml.wholeLimit : Int) ≤ n ∧ (n : Int) < Toml.wholeLimit :=
        ⟨Int.le_trans (Int.neg_nonpos_of_nonneg (Int.natCast_nonneg _)) (Int.natCast_nonneg n),
          Int.ofNat_lt.2 small⟩
      refine ⟨.whole n, .count n, .whole n, ?_⟩
      rw [Item.lineText, if_pos fits]
      exact ⟨_, rfl⟩
  | truth b => exact ⟨.truth b, .truth b, .truth b, _, rfl⟩
  | duration d =>
      obtain ⟨x, nearest⟩ := expressible
      exact ⟨.real x, .seconds (.real x) nearest, .real x, _, rfl⟩
  | criterion v => exact ⟨.text v.word, .criterion v, v.legible_word, _, rfl⟩

/-! ## Entries for the chosen settings -/

/-- Parts with the entries for them, one after the other. -/
theorem Holds.append {parts more : List Part} {es fs : Entries} (first : Holds parts es)
    (second : Holds more fs) (own : es.map Prod.fst ⊆ parts.map Part.name)
    (own' : fs.map Prod.fst ⊆ more.map Part.name)
    (distinct : (parts.map Part.name ++ more.map Part.name).Nodup) :
    Holds (parts ++ more) (es ++ fs) := by
  have apart := (List.nodup_append.1 distinct).2.2
  intro part mem
  rcases List.mem_append.1 mem with mem | mem
  · have name := List.mem_map_of_mem (f := Part.name) mem
    refine ⟨fun item there => ?_, fun missing => ?_⟩
    · rcases List.mem_append.1 there with there | there
      · exact (first part mem).1 item there
      · exact absurd rfl (apart _ name _ (own' (List.mem_map_of_mem there)))
    · exact (first part mem).2 fun item there => missing item (List.mem_append_left _ there)
  · have name := List.mem_map_of_mem (f := Part.name) mem
    refine ⟨fun item there => ?_, fun missing => ?_⟩
    · rcases List.mem_append.1 there with there | there
      · exact absurd rfl (apart _ (own (List.mem_map_of_mem there)) _ name)
      · exact (second part mem).1 item there
    · exact (second part mem).2 fun item there => missing item (List.mem_append_right _ there)

theorem Holds.entry (part : Part) {item : Item} (told : part.told item) :
    Holds [part] [(part.name, item)] := by
  intro p mem
  cases List.mem_singleton.1 mem
  refine ⟨fun found there => ?_, fun missing => ?_⟩
  · cases List.mem_singleton.1 there
    exact told
  · exact absurd (List.mem_singleton_self _) (missing item)

theorem Holds.nothing {part : Part} (absent : part.absent) : Holds [part] [] := by
  intro p mem
  cases List.mem_singleton.1 mem
  exact ⟨fun _ there => (nomatch there), fun _ => absent⟩

theorem name_settings (given : List String → Bool) (leaves : List (String × Option Setting)) :
    (settings given leaves).map Part.name = leaves.map Prod.fst := by
  rw [settings, List.map_map]
  rfl

theorem name_tables (tables : List (String × List Part)) :
    (tables.map fun t => Part.table t.1 t.2).map Part.name = tables.map Prod.fst := by
  rw [List.map_map]
  rfl

/-- There are entries for the chosen settings. -/
theorem exists_entries {given : List String → Bool} {leaves : List (String × Option Setting)}
    (expressible : AllExpressible given leaves) (distinct : (leaves.map Prod.fst).Nodup) :
    ∃ es : Entries, Holds (settings given leaves) es ∧
      (es.map Prod.fst).Sublist (leaves.map Prod.fst) ∧ (∀ e ∈ es, Legible e.2) ∧
      ∃ lines, ownLines es = some lines := by
  induction leaves with
  | nil => exact ⟨[], fun _ mem => (nomatch mem), .slnil, fun _ mem => (nomatch mem), [], rfl⟩
  | cons leaf leaves ih =>
      obtain ⟨name, value⟩ := leaf
      have all := distinct
      rw [List.map_cons, List.nodup_cons] at distinct
      obtain ⟨es, holds, names, legible, lines, written⟩ :=
        ih (fun leaf mem => expressible leaf (List.mem_cons_of_mem _ mem)) distinct.2
      have own := names.subset
      rw [← name_settings given] at own
      rw [← name_settings given] at all
      cases chosen : given [name] with
      | false =>
          have none : Holds [.setting given name value] [] := .nothing chosen
          exact ⟨es, none.append holds (List.nil_subset _) own all, names.cons _, legible, lines,
            written⟩
      | true =>
          obtain ⟨v, has, expressed⟩ := expressible (name, value) List.mem_cons_self chosen
          obtain ⟨item, told, legible_item, text, line⟩ := expressed.exists_item
          have one : Holds [.setting given name value] [(name, item)] :=
            .entry _ ⟨chosen, v, has, told⟩
          refine ⟨(name, item) :: es, one.append holds (List.Subset.refl _) own all,
            names.cons_cons _, List.forall_mem_cons.2 ⟨legible_item, legible⟩, ?_⟩
          exact ⟨_, legible_item.ownLines_eq line written⟩

/-- There are entries for tables. -/
theorem exists_subtables {levels : Nat} {tables : List (String × List Part)}
    (each : ∀ t ∈ tables, ∃ es, Holds t.2 es ∧ Headed levels es)
    (distinct : (tables.map Prod.fst).Nodup) :
    ∃ subs : List (String × Entries), subs.map Prod.fst = tables.map Prod.fst ∧
      Holds (tables.map fun t => .table t.1 t.2) (subtables subs) ∧
      ∀ t ∈ subs, Headed levels t.2 := by
  induction tables with
  | nil => exact ⟨[], rfl, fun _ mem => (nomatch mem), fun _ mem => (nomatch mem)⟩
  | cons t tables ih =>
      obtain ⟨name, parts⟩ := t
      have others := distinct
      rw [List.map_cons, List.nodup_cons] at others
      obtain ⟨es, holds, headed⟩ := each (name, parts) List.mem_cons_self
      obtain ⟨subs, names, rest, below⟩ :=
        ih (fun t mem => each t (List.mem_cons_of_mem _ mem)) others.2
      have one : Holds [.table name parts] [(name, .table .headed es)] :=
        .entry _ ⟨.headed, es, rfl, holds⟩
      refine ⟨(name, es) :: subs, by rw [List.map_cons, List.map_cons, names],
        one.append rest (List.Subset.refl _) ?_ ?_, List.forall_mem_cons.2 ⟨headed, below⟩⟩
      · have same := (map_fst_subtables subs).trans (names.trans (name_tables tables).symm)
        exact same ▸ List.Subset.refl _
      · rw [← name_tables] at distinct
        exact distinct

/-- There are entries for settings and tables. -/
theorem exists_headed_tables (names : List String) {levels : Nat} {given : List String → Bool}
    {leaves : List (String × Option Setting)} (tables : List (String × List Part))
    (expressible : AllExpressible given leaves)
    (each : ∀ t ∈ tables, ∃ es, Holds t.2 es ∧ Headed levels es)
    (named : leaves.map Prod.fst ++ tables.map Prod.fst = names) (distinct : names.Nodup)
    (bare : ∀ key ∈ names, Bare key) :
    ∃ es, Holds (settings given leaves ++ tables.map fun t => .table t.1 t.2) es ∧
      Headed (levels + 1) es := by
  subst named
  have apart := List.nodup_append.1 distinct
  obtain ⟨own, told, among, legible, written⟩ := exists_entries expressible apart.1
  obtain ⟨subs, names, rest, below⟩ := exists_subtables each apart.2.1
  have kept : (own.map Prod.fst ++ subs.map Prod.fst).Sublist
      (leaves.map Prod.fst ++ tables.map Prod.fst) := by
    rw [names]
    exact among.append (.refl _)
  refine ⟨own ++ subtables subs, told.append rest ?_ ?_ ?_, ?_⟩
  · rw [name_settings]
    exact among.subset
  · rw [map_fst_subtables, names, name_tables]
    exact List.Subset.refl _
  · rw [name_settings, name_tables]
    exact distinct
  · exact .mk (kept.nodup distinct) (fun key mem => bare key (kept.subset mem)) legible written
      below

/-- There are entries for settings without tables. -/
theorem exists_headed_settings (names : List String) (levels : Nat) {given : List String → Bool}
    {leaves : List (String × Option Setting)} (expressible : AllExpressible given leaves)
    (named : leaves.map Prod.fst = names) (distinct : names.Nodup)
    (bare : ∀ key ∈ names, Bare key) :
    ∃ es, Holds (settings given leaves) es ∧ Headed (levels + 1) es := by
  have none : ∀ t ∈ ([] : List (String × List Part)), ∃ es, Holds t.2 es ∧ Headed levels es :=
    fun _ mem => (nomatch mem)
  have whole := exists_headed_tables names [] expressible none (by simpa using named) distinct bare
  simpa using whole

namespace SolverSettings

variable {given : List String → Bool} {c : SolverSettings Float}

/-- There are entries for the chosen settings, if they can be written. -/
theorem exists_headed (expressible : c.Expressible given) :
    ∃ es, Holds (c.parts given) es ∧ Headed 3 es := by
  have lipschitz := exists_headed_settings ((LipschitzSettings.keys (E := Violation)).map Key.name)
    0 expressible.lipschitz rfl (by decide) (by decide)
  have cbfgs := exists_headed_settings ((CbfgsSettings.keys (E := Violation)).map Key.name)
    0 expressible.cbfgs rfl (by decide) (by decide)
  have outer := exists_headed_settings ((OuterSettings.keys (E := Violation)).map Key.name)
    1 expressible.outer rfl (by decide) (by decide)
  have panoc := exists_headed_tables ((PanocSettings.keys (E := Violation)).map Key.name)
    [("lipschitz", _)] expressible.panoc (List.forall_mem_singleton.2 lipschitz) rfl (by decide)
    (by decide)
  have lbfgs := exists_headed_tables ((LbfgsSettings.keys (E := Violation)).map Key.name)
    [("cbfgs", _)] expressible.lbfgs (List.forall_mem_singleton.2 cbfgs) rfl (by decide) (by decide)
  have none : AllExpressible given [] := fun _ mem => (nomatch mem)
  refine exists_headed_tables ((keys (E := Violation)).map Key.name)
    [("alm", _), ("panoc", _), ("lbfgs", _)] none ?_ rfl (by decide) (by decide)
  exact List.forall_mem_cons.2 ⟨outer, List.forall_mem_cons.2
    ⟨panoc, List.forall_mem_singleton.2 lbfgs⟩⟩

/-- Any chosen settings are given by a text, if they can be written. -/
theorem exists_text (expressible : c.Expressible given) : ∃ text, c.GivenBy given text := by
  obtain ⟨es, holds, headed⟩ := exists_headed expressible
  obtain ⟨text, document⟩ := headed.exists_text (by decide)
  exact ⟨text, es, document, holds⟩

/-- What is read of a document that gives some of the settings are the defaults with these settings
in their places, whatever else the document says and in which order.  They are returned if they are
admissible as a whole, and refused with what is violated first otherwise.  Any settings can be given
that can be written. -/
theorem given_over_default (given : List String → Bool) (c : SolverSettings Float) :
    (∀ text, c.GivenBy given text →
      (Requirement.check (c.layer given .default).requirements = .ok () →
        ofText text = .ok (c.layer given .default)) ∧
      ∀ v, Requirement.check (c.layer given .default).requirements = .error v →
        ofText text = .error (.refused v)) ∧
    (c.Expressible given → ∃ text, c.GivenBy given text) := by
  refine ⟨fun text gives => ⟨fun accepted => ?_, fun v violated => ?_⟩, exists_text⟩
  · exact ofText_eq_ok_iff.2 ⟨read_eq_layer gives, accepted⟩
  · exact ofText_eq_refused (read_eq_layer gives) violated

/-- A document with tables in an order of its own, one of them made by a dotted key, and keys that
nothing reads. -/
def patchText : String :=
  "[panoc.lipschitz]\nl0 = 1\nunknown = [2.5]\n\n[other]\nx = 1\n\n" ++
  "[lbfgs]\ncbfgs.epsilon = 2\n\n[alm]\nmax_time = 3\nmin_penalty = 1e10\n"

def patchEntries : Entries :=
  [("panoc", .table .implied
      [("lipschitz", .table .headed [("l0", .whole 1), ("unknown", .list [.real 2.5])])]),
    ("other", .table .headed [("x", .whole 1)]),
    ("lbfgs", .table .headed [("cbfgs", .table .dotted [("epsilon", .whole 2)])]),
    ("alm", .table .headed [("max_time", .whole 3), ("min_penalty", .real 1e10)])]

def threeSeconds : Duration :=
  ⟨3 * nanosPerSecond, by decide⟩

/-- The settings that the document gives. -/
def patch : SolverSettings Float :=
  { (default : SolverSettings Float) with
    panoc.lipschitz.l0 := Binary64.ofInt 1
    lbfgs.cbfgs.epsilon := Binary64.ofInt 2
    outer.maxTime := threeSeconds
    outer.minPenalty := 1e10 }

/-- Where it gives them. -/
def patchPaths : List (List String) :=
  [["panoc", "lipschitz", "l0"], ["lbfgs", "cbfgs", "epsilon"], ["alm", "max_time"],
    ["alm", "min_penalty"]]

theorem ofSeconds_three : Duration.ofSeconds (Binary64.ofInt 3) = some threeSeconds := by
  decide +kernel

set_option maxRecDepth 4000 in
theorem patch_givenBy : patch.GivenBy patchPaths.contains patchText := by
  refine ⟨patchEntries, rfl, ?_⟩
  have values : (Setting.real 1e10).ToldBy (.real 1e10) ∧
      (Setting.duration threeSeconds).ToldBy (.whole 3) ∧
      (Setting.real (Binary64.ofInt 1)).ToldBy (.whole 1) ∧
      (Setting.real (Binary64.ofInt 2)).ToldBy (.whole 2) :=
    ⟨.real _, .seconds (.whole 3) ofSeconds_three, .whole 1, .whole 2⟩
  simpa [Holds, parts, PanocSettings.parts, LbfgsSettings.parts, Part.table, Part.setting, settings,
    OuterSettings.leaves, PanocSettings.leaves, LbfgsSettings.leaves, LipschitzSettings.leaves,
    CbfgsSettings.leaves, patchEntries, patchPaths, patch, and_assoc] using values

/-- The smallest weight that it gives is above the largest by default.  The time alone is
admissible. -/
theorem patch_over_default :
    patch.GivenBy patchPaths.contains patchText ∧
      ofText patchText = .error (.refused ⟨⟨.outer, "max_penalty"⟩, .atLeast "min_penalty"⟩) ∧
      ∃ text, patch.GivenBy [["alm", "max_time"]].contains text ∧ ofText text =
        .ok { (default : SolverSettings Float) with outer.maxTime := threeSeconds } := by
  have refused := ((given_over_default _ patch).1 patchText patch_givenBy).2 _ rfl
  have time : patch.Expressible [["alm", "max_time"]].contains := by
    constructor <;> simp [AllExpressible, OuterSettings.leaves,
      PanocSettings.leaves, LbfgsSettings.leaves, LipschitzSettings.leaves, CbfgsSettings.leaves]
    exact ⟨_, ofSeconds_three⟩
  obtain ⟨texts, exist⟩ := given_over_default [["alm", "max_time"]].contains patch
  obtain ⟨text, gives⟩ := exist time
  exact ⟨patch_givenBy, refused, text, gives, (texts text gives).1 rfl⟩

end SolverSettings

end AugmentedLagrangian

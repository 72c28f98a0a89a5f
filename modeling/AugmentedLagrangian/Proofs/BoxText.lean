/- # AugmentedLagrangian.Proofs.BoxText — boxes come back from their documents

A box is written as its two vectors and read through the check that makes boxes.  The check refuses
nothing here, since a box is made from its own bounds (`Box.ofBounds_self`), and the bounds come back
as they are, infinities and the signs of zeros included.  So every box, whatever has been done to it,
is read from its document as it was, and so is every pair of boxes (`boxes_reread`).
-/
import AugmentedLagrangian.Proofs.BoxHistory

namespace AugmentedLagrangian

set_option autoImplicit false

open Toml

/-! ## Boxes -/

namespace Box

/-- The entries of a box: the two vectors. -/
def entries (b : Box Float) : Entries :=
  Key.entries Box.kind.boundKeys ⟨some b.lowers, some b.uppers⟩

/-- The lines of a box: one for each vector. -/
def textLines (b : Box Float) : List (List Char) :=
  [valueLine "lowerbound" ('[' :: (realsText b.lowers ++ [']'])),
    valueLine "upperbound" ('[' :: (realsText b.uppers ++ [']']))]

theorem entries_eq (b : Box Float) :
    b.entries =
      [("lowerbound", .list (b.lowers.map .real)), ("upperbound", .list (b.uppers.map .real))] := by
  rw [← Kind.give_reals (E := BoxError Float) b.lowers,
    ← Kind.give_reals (E := BoxError Float) b.uppers]
  rfl

theorem returns_kind (b : Box Float) : Box.kind.Returns b := by
  refine ⟨document b.lowers b.uppers, rfl, ?_⟩
  rw [take_document, ofBounds_self]
  rfl

theorem tidy_entries (b : Box Float) : Tidy 1 b.entries := by
  refine Key.tidy_entries Box.kind.boundKeys [] (by decide) ?_ (List.forall_mem_nil _) _
  simp +decide [Box.kind.boundKeys, Halves.keys]

theorem legible_head_entries (b : Box Float) : ∀ e ∈ b.entries.head?, Legible e.2 := by
  rw [entries_eq]
  rintro _ ⟨⟩
  exact .reals b.lowers

theorem ownLines_entries (b : Box Float) : ownLines b.entries = some b.textLines := by
  rw [entries_eq, ownLines, ownLines, ownLines, lineText_reals, lineText_reals]
  · rfl
  · simp
  · simp

/-- A box is one section, under the header of its path. -/
theorem sections_entries (path : List String) (b : Box Float) :
    (Item.table .headed b.entries).sections path = some [headerLines path ++ b.textLines] := by
  rw [Item.sections, ownSection, ownLines_entries, entries_eq]
  rfl

/-- The document of a box. -/
theorem write?_eq (b : Box Float) :
    Box.kind.write? b = some (String.ofList (linesText b.textLines)) := by
  have given : Box.kind.give b = some (.table .headed b.entries) := rfl
  rw [Kind.write?, given]
  simp only [write?, sections_entries]
  simp [List.intercalate, headerLines, linesText]

end Box

/-! ## Pairs of boxes -/

namespace Constraints

variable (c : Constraints Float)

/-- The entries of a pair of boxes: the two tables. -/
def entries : Entries :=
  Key.entries Constraints.kind.boxKeys ⟨some c.domain, some c.values⟩

/-- No values stand before the two tables. -/
theorem entries_eq :
    c.entries = [] ++ subtables [("c", c.domain.entries), ("d", c.values.entries)] := rfl

theorem returns_kind : Constraints.kind.Returns c := by
  refine ⟨.table .headed c.entries, rfl, ?_⟩
  have read : Key.record Constraints.kind.boxKeys {} (.table .headed c.entries) =
      .ok ⟨some c.domain, some c.values⟩ :=
    Halves.record_entries (by decide) c.domain.returns_kind c.values.returns_kind
  simp only [Constraints.kind, read]
  rfl

theorem tidy_entries : Tidy 2 c.entries := by
  have names : (["c", "d"] : List String).Nodup := by decide
  have bare : ∀ key ∈ ["c", "d"], Bare key := by decide
  rw [entries_eq]
  refine Tidy.mk ?names ?bare (List.forall_mem_nil _) ?own ?below
  case names => exact names
  case bare => exact bare
  case own =>
    simp only [List.forall_mem_cons]
    exact ⟨c.domain.legible_head_entries, c.values.legible_head_entries, List.forall_mem_nil _⟩
  case below =>
    simp only [List.forall_mem_cons]
    exact ⟨c.domain.tidy_entries, c.values.tidy_entries, List.forall_mem_nil _⟩

/-- A pair of boxes is two sections, one under each key. -/
theorem sections_entries :
    (Item.table .headed c.entries).sections [] =
      some [headerLine ["c"] :: c.domain.textLines, headerLine ["d"] :: c.values.textLines] := by
  have own : ownSection [] c.entries = some [] := rfl
  rw [Item.sections, own, entries_eq]
  simp only [List.nil_append, subtables, List.map_cons, List.map_nil, sectionsBelow,
    Box.sections_entries]
  rfl

/-- The document of a pair of boxes: one section for each, with an empty line between them. -/
theorem write?_eq :
    Constraints.kind.write? c = some (String.ofList
      (linesText (headerLine ["c"] :: c.domain.textLines) ++ '\n' ::
        linesText (headerLine ["d"] :: c.values.textLines))) := by
  have given : Constraints.kind.give c = some (.table .headed c.entries) := rfl
  rw [Kind.write?, given]
  simp only [write?, sections_entries]
  simp [List.intercalate, linesText]

end Constraints

/-- Every box is written, and read from its document as it was, and so is every pair of boxes. -/
theorem boxes_reread (b : Box Float) (c : Constraints Float) :
    (∃ text, Box.kind.write? b = some text ∧ Box.kind.read text = .ok b) ∧
      ∃ text, Constraints.kind.write? c = some text ∧ Constraints.kind.read text = .ok c := by
  constructor
  · refine ⟨_, b.write?_eq, ?_⟩
    exact Kind.read_written rfl b.tidy_entries (by decide) b.returns_kind b.write?_eq
  · refine ⟨_, c.write?_eq, ?_⟩
    exact Kind.read_written rfl c.tidy_entries (by decide) c.returns_kind c.write?_eq

example : Box.kind.write? (.unbounded 2) =
    some "lowerbound = [-inf, -inf]\nupperbound = [inf, inf]\n" := by
  decide +kernel

end AugmentedLagrangian

/- # AugmentedLagrangian.Proofs.RecordText — structures come back from their tables

What a structure gives key by key is taken again key by key: `Key.restore` goes through the keys of
a structure once, and is what reading the structure's entries does, as long as no two keys have one
name (`ofEntries_entries`).  For one key this is to take what its kind gives (`Kind.again`), which
returns the value for all kinds but durations.

The entries of a structure are tidy if its keys of values stand before its keys of structures
(`tidy_entries`), so they are also what its document is read as.
-/
import AugmentedLagrangian.Proofs.DocumentText
import AugmentedLagrangian.Toml.Record

namespace AugmentedLagrangian

set_option autoImplicit false

namespace Toml

variable {E S α : Type}

/-! ## Taking what was given -/

/-- The value that is taken of what is given for `v`, or `old` if nothing is. -/
def Kind.again (kind : Kind E α) (old v : α) : Except (ReadError E) α :=
  match kind.give v with
  | none => .ok old
  | some item => kind.take item

/-- The structure `b` with the fields that `s` gives, one key after the other. -/
def Key.restore : List (Key E S) → S → S → Except (ReadError E) S
  | [], _, b => .ok b
  | key :: keys, s, b =>
    match key.give s with
    | none => restore keys s b
    | some item => do restore keys s (← key.replace item b)

/-- What is found under its own name, where no two have one name. -/
theorem find?_name {β : Type} {name : β → String} {xs : List β} (distinct : (xs.map name).Nodup)
    {x : β} (mem : x ∈ xs) : xs.find? (fun y => name y = name x) = some x := by
  induction xs with
  | nil => nomatch mem
  | cons y ys ih =>
      rw [List.map_cons, List.nodup_cons] at distinct
      rcases List.mem_cons.1 mem with rfl | later
      · exact List.find?_cons_of_pos (decide_eq_true rfl)
      · have other : name y ≠ name x := fun same =>
          distinct.1 (same ▸ List.mem_map_of_mem later)
        rw [List.find?_cons_of_neg (by simpa using other)]
        exact ih distinct.2 later

namespace Key

@[simp] theorem restore_nil (s b : S) : restore ([] : List (Key E S)) s b = pure b := rfl

theorem restore_key {kind : Kind E α} {name : String} {get : S → α} {set : α → S → S}
    {keys : List (Key E S)} {s b : S} (keeps : set (get b) b = b) :
    restore (kind.key name get set :: keys) s b = (do
      let v ← kind.again (get b) (get s)
      restore keys s (set v b)) := by
  have given : (kind.key name get set).give s = kind.give (get s) := rfl
  rw [restore, given, Kind.again]
  cases kind.give (get s) with
  | none => exact (congrArg (restore keys s) keeps).symm
  | some item =>
      show (do restore keys s (← (do return set (← kind.take item) b))) = (do
        let v ← kind.take item
        restore keys s (set v b))
      cases kind.take item <;> rfl

/-- Reading the entries of a structure goes through its keys. -/
theorem ofEntries_entries {keys : List (Key E S)} (distinct : (keys.map Key.name).Nodup) (s b : S) :
    ofEntries keys (entries keys s) b = restore keys s b := by
  -- the entries of the keys that are left, each of which is found among all of them
  have rest : ∀ left : List (Key E S), (∀ key ∈ left, key ∈ keys) → ∀ b,
      ofEntries keys (entries left s) b = restore left s b := by
    intro left
    induction left with
    | nil => intro _ _; rfl
    | cons key left ih =>
        intro among b
        have others := ih fun k mem => among k (List.mem_cons_of_mem _ mem)
        rw [restore, entries, List.filterMap_cons]
        cases given : key.give s with
        | none => exact others b
        | some item =>
            show ofEntries keys ((key.name, item) :: entries left s) b = _
            rw [ofEntries, find?_name distinct (among key List.mem_cons_self)]
            exact congrArg (key.replace item b >>= ·) (funext others)
  exact rest keys (fun _ mem => mem) b

end Key

namespace Kind

theorem again_of_give {kind : Kind E α} {v : α} {item : Item} (given : kind.give v = some item)
    (old : α) : kind.again old v = kind.take item := by
  rw [again, given]

@[simp] theorem again_real (old x : Float) : (real : Kind E Float).again old x = pure x := rfl

@[simp] theorem again_count (old n : Nat) : (count : Kind E Nat).again old n = pure n := by
  simp [again, count, pure, Except.pure]

@[simp] theorem again_truth (old b : Bool) : (truth : Kind E Bool).again old b = pure b := rfl

/-- What may be absent is kept if there is nothing to keep in its place. -/
@[simp] theorem again_optional_real (v : Option Float) :
    (real.optional : Kind E (Option Float)).again none v = pure v := by
  cases v <;> rfl

/-- The items of a list of reals. -/
theorem give_reals (xs : List Float) :
    xs.filterMap (real : Kind E Float).give = xs.map .real := by
  rw [← List.filterMap_eq_map]
  rfl

/-- The value is taken again of what is given for it. -/
def Returns (kind : Kind E α) (v : α) : Prop :=
  ∃ item, kind.give v = some item ∧ kind.take item = .ok v

theorem returns_reals (xs : List Float) : (list real : Kind E (List Float)).Returns xs := by
  refine ⟨_, rfl, ?_⟩
  show (xs.filterMap (real : Kind E Float).give).mapM (real : Kind E Float).take = .ok xs
  rw [give_reals]
  induction xs with
  | nil => rfl
  | cons x xs ih =>
      rw [List.map_cons, List.mapM_cons, ih]
      rfl

theorem Returns.again_optional {kind : Kind E α} {v : α} (returns : kind.Returns v)
    (old : Option α) : kind.optional.again old (some v) = pure (some v) := by
  obtain ⟨item, given, taken⟩ := returns
  have given' : kind.optional.give (some v) = some item := given
  rw [again_of_give given']
  show some <$> kind.take item = _
  rw [taken]
  rfl

theorem again_choice {values : List α} {word : α → String}
    (distinct : (values.map word).Nodup) {v : α} (known : v ∈ values) (old : α) :
    (choice values word : Kind E α).again old v = pure v := by
  have given : (choice values word : Kind E α).give v = some (.text (word v)) := rfl
  rw [again_of_give given]
  have found : ((word? (.text (word v))).bind fun w => values.find? fun v => word v = w) = some v :=
    find?_name distinct known
  have taken : (choice values word : Kind E α).take (.text (word v)) = .ok v := by
    simp only [choice, found]
  rw [taken]
  rfl

/-- Seconds are taken after their number, as the duration nearest to it. -/
theorem take_seconds (x : Float) : (seconds : Kind E Duration).take (.real x) =
    match Duration.ofSeconds x with
    | some d => pure d
    | none => throw .malformed := by
  have taken : (seconds : Kind E Duration).take (.real x) = (do
      match Duration.ofSeconds (← (real : Kind E Float).take (.real x)) with
      | some d => return d
      | none => throw .malformed) := rfl
  have number : (real : Kind E Float).take (.real x) = pure x := rfl
  rw [taken, number, pure_bind]

/-- A duration is taken as the one nearest to its seconds. -/
@[simp] theorem again_seconds (old d : Duration) :
    (seconds : Kind E Duration).again old d = seconds.take (.real d.toSeconds) :=
  again_of_give rfl old

theorem again_group {keys : List (Key E S)} (distinct : (keys.map Key.name).Nodup)
    (base old s : S) : (group keys base).again old s = Key.restore keys s base :=
  Key.ofEntries_entries distinct s base

end Kind

/-! ## Tidy structures -/

namespace Key

/-- A key that needs no quotes, of a value that is legible whenever there is one. -/
structure Leaf (key : Key E S) : Prop where
  bare : Bare key.name
  legible : ∀ s, ∀ item ∈ key.give s, Legible item

/-- A key that needs no quotes, of a table that is tidy and begins with a value. -/
structure Branch (levels : Nat) (key : Key E S) : Prop where
  bare : Bare key.name
  tidy : ∀ s, ∃ es, key.give s = some (.table .headed es) ∧ Tidy levels es ∧
    ∀ e ∈ es.head?, Legible e.2

theorem map_fst_entries (keys : List (Key E S)) (s : S) :
    ((entries keys s).map Prod.fst).Sublist (keys.map Key.name) := by
  induction keys with
  | nil => exact .slnil
  | cons key keys ih =>
      rw [entries, List.filterMap_cons]
      cases key.give s with
      | none => exact ih.cons _
      | some item => exact ih.cons_cons _

theorem entries_append (keys more : List (Key E S)) (s : S) :
    entries (keys ++ more) s = entries keys s ++ entries more s :=
  List.filterMap_append

/-- The entries of branches are tables. -/
theorem exists_subtables {levels : Nat} {branches : List (Key E S)}
    (branch : ∀ key ∈ branches, key.Branch levels) (s : S) :
    ∃ tables, entries branches s = subtables tables ∧
      (∀ t ∈ tables, Tidy levels t.2 ∧ ∀ e ∈ t.2.head?, Legible e.2) := by
  induction branches with
  | nil => exact ⟨[], rfl, fun _ mem => nomatch mem⟩
  | cons key branches ih =>
      obtain ⟨tables, rest, all⟩ := ih fun k mem => branch k (List.mem_cons_of_mem _ mem)
      obtain ⟨es, given, tidy⟩ := (branch key List.mem_cons_self).tidy s
      refine ⟨(key.name, es) :: tables, ?_, ?_⟩
      · rw [entries, List.filterMap_cons, given]
        exact congrArg _ rest
      · rintro t mem
        rcases List.mem_cons.1 mem with rfl | mem
        · exact tidy
        · exact all t mem

/-- The entries of leaves and then branches are tidy. -/
theorem tidy_entries {levels : Nat} (leaves branches : List (Key E S))
    (distinct : ((leaves ++ branches).map Key.name).Nodup) (leaf : ∀ key ∈ leaves, key.Leaf)
    (branch : ∀ key ∈ branches, key.Branch levels) (s : S) :
    Tidy (levels + 1) (entries (leaves ++ branches) s) := by
  obtain ⟨tables, rest, all⟩ := exists_subtables branch s
  have names := map_fst_entries (leaves ++ branches) s
  rw [entries_append, rest, List.map_append, map_fst_subtables] at names
  rw [entries_append, rest]
  have bare : ∀ name ∈ (leaves ++ branches).map Key.name, Bare name := by
    intro name mem
    obtain ⟨key, among, rfl⟩ := List.mem_map.1 mem
    exact (List.mem_append.1 among).elim (fun among => (leaf key among).bare)
      fun among => (branch key among).bare
  refine .mk (names.nodup distinct) (fun name mem => bare name (names.subset mem)) ?_
    (fun t mem => (all t mem).2) fun t mem => (all t mem).1
  rintro ⟨name, item⟩ entry
  obtain ⟨key, among, given⟩ := List.mem_filterMap.1 entry
  obtain ⟨item', given, same⟩ := Option.map_eq_some_iff.1 given
  cases same
  exact (leaf key among).legible s _ given

section Kinds

variable {name : String}

theorem leaf_of_legible {kind : Kind E α} (legible : ∀ v, ∀ item ∈ kind.give v, Legible item)
    (bare : Bare name) (get : S → α) (set : α → S → S) : (kind.key name get set).Leaf :=
  ⟨bare, fun s => legible (get s)⟩

@[simp] theorem leaf_real (bare : Bare name) (get : S → Float) (set : Float → S → S) :
    ((Kind.real : Kind E Float).key name get set).Leaf :=
  leaf_of_legible (by rintro v _ ⟨⟩; exact .real v) bare get set

@[simp] theorem leaf_optional_real (bare : Bare name) (get : S → Option Float)
    (set : Option Float → S → S) :
    ((Kind.real.optional : Kind E (Option Float)).key name get set).Leaf := by
  refine leaf_of_legible ?_ bare get set
  rintro v item given
  obtain ⟨v, -, same⟩ := Option.bind_eq_some_iff.1 given
  cases same
  exact .real v

@[simp] theorem leaf_reals (bare : Bare name) (get : S → Option (List Float))
    (set : Option (List Float) → S → S) :
    (((Kind.list .real).optional : Kind E (Option (List Float))).key name get set).Leaf := by
  refine leaf_of_legible ?_ bare get set
  rintro v item given
  obtain ⟨xs, -, same⟩ := Option.bind_eq_some_iff.1 given
  cases same
  rw [Kind.give_reals]
  exact .reals xs

@[simp] theorem leaf_count (bare : Bare name) (get : S → Nat) (set : Nat → S → S) :
    ((Kind.count : Kind E Nat).key name get set).Leaf :=
  leaf_of_legible (by rintro v _ ⟨⟩; exact .whole v) bare get set

@[simp] theorem leaf_truth (bare : Bare name) (get : S → Bool) (set : Bool → S → S) :
    ((Kind.truth : Kind E Bool).key name get set).Leaf :=
  leaf_of_legible (by rintro v _ ⟨⟩; exact .truth v) bare get set

@[simp] theorem leaf_seconds (bare : Bare name) (get : S → Duration) (set : Duration → S → S) :
    ((Kind.seconds : Kind E Duration).key name get set).Leaf :=
  leaf_of_legible (by rintro v _ ⟨⟩; exact .real v.toSeconds) bare get set

@[simp] theorem leaf_choice {values : List α} {word : α → String} (bare : Bare name)
    (words : ∀ v, Legible (.text (word v))) (get : S → α) (set : α → S → S) :
    ((Kind.choice values word : Kind E α).key name get set).Leaf :=
  leaf_of_legible (by rintro v _ ⟨⟩; exact words v) bare get set

theorem branch_group {levels : Nat} {T : Type} {keys : List (Key E T)} {base : T}
    (bare : Bare name) (tidy : ∀ s, Tidy levels (entries keys s))
    (own : ∀ s, ∀ e ∈ (entries keys s).head?, Legible e.2) (get : S → T) (set : T → S → S) :
    ((Kind.group keys base).key name get set).Branch levels :=
  ⟨bare, fun s => ⟨_, rfl, tidy (get s), own (get s)⟩⟩

end Kinds

end Key

/-! ## Documents -/

/-- A value that is given as a tidy table, and taken again of it, is read of its document. -/
theorem Kind.read_written {kind : Kind E α} {v : α} {es : Entries} {levels : Nat}
    (given : kind.give v = some (.table .headed es)) (tidy : Tidy (levels + 1) es)
    (within : levels ≤ depthLimit) (returns : kind.Returns v) {text : String}
    (written : kind.write? v = some text) : kind.read text = .ok v := by
  obtain ⟨item, given', taken⟩ := returns
  rw [given] at given'
  cases given'
  rw [write?, given] at written
  rw [read, document?_write? tidy within written]
  exact taken

end Toml

end AugmentedLagrangian

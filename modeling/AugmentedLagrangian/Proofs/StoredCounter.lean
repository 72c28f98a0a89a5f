/- # AugmentedLagrangian.Proofs.StoredCounter — counters come back from their stored form

A stored counter has the number of calls under each operation's key and a record of the times, and
these are the only fields that matter (`StoredAs`).  None of them may be there twice.  The same
counter has many stored forms: fields may stand in any order, amid others or in a row, and
nanoseconds may be more than a second.  Reading is told by what it reads, in both directions
(`ofForm?_eq_some_iff`), so that a form is read exactly if it is one of these, and what is written
is one of them.
-/
import AugmentedLagrangian.Count.Form
import Mathlib.Data.List.Forall2
import Mathlib.Data.List.Nodup

namespace AugmentedLagrangian

set_option autoImplicit false

/-! ## Lists of optional values -/

theorem mapM_eq_some_iff {α β : Type} {f : α → Option β} {xs : List α} {ys : List β} :
    xs.mapM f = some ys ↔ List.Forall₂ (fun x y => f x = some y) xs ys := by
  induction xs generalizing ys with
  | nil =>
      rw [List.mapM_nil, List.forall₂_nil_left_iff]
      exact Option.some_inj.trans eq_comm
  | cons x xs ih =>
      rw [List.mapM_cons, List.forall₂_cons_left_iff]
      simp only [Option.bind_eq_bind, Option.bind_eq_some_iff, ih]
      constructor
      · rintro ⟨y, here, ys, rest, ⟨⟩⟩
        exact ⟨y, ys, here, rest, rfl⟩
      · rintro ⟨y, ys, here, rest, rfl⟩
        exact ⟨y, here, ys, rest, rfl⟩

/-! ## Fields of a form -/

namespace Form

/-- The form has the field: in a record as the only one with its key, and in a row of all fields at
its place. -/
def Has (keys : List String) (form : Form) (key : String) (value : Form) : Prop :=
  match form with
  | record fields => (key, value) ∈ fields ∧ (fields.map Prod.fst).count key = 1
  | row items => items.length = keys.length ∧ items[keys.idxOf key]? = some value
  | _ => False

/-- The form has no fields beyond these keys. -/
def Only (keys : List String) : Form → Prop
  | record fields => ∀ field ∈ fields, field.1 ∈ keys
  | _ => True

variable {keys : List String} {form : Form}

/-- A field is read if it is the only one with its key. -/
theorem field?_eq_some_iff {key : String} {value : Form} {fields : List (String × Form)} :
    field? key fields = some value ↔
      (key, value) ∈ fields ∧ (fields.map Prod.fst).count key = 1 := by
  have here : (fields.map Prod.fst).count key =
      (fields.filter fun field => field.1 == key).length := by
    rw [List.count_eq_countP, List.countP_map, List.countP_eq_length_filter]
    rfl
  have mem : (key, value) ∈ fields ↔ (key, value) ∈ fields.filter fun field => field.1 == key := by
    simp
  rw [field?, here, mem]
  constructor
  · intro read
    split at read
    next k v only =>
      cases read
      have same : k = key := by
        have inside : (k, value) ∈ fields.filter fun field => field.1 == key := by simp [only]
        simpa using (List.mem_filter.1 inside).2
      rw [only, same]
      exact ⟨List.mem_singleton.2 rfl, rfl⟩
    next => cases read
  · rintro ⟨inside, one⟩
    obtain ⟨field, only⟩ := List.length_eq_one_iff.1 one
    rw [only, List.mem_singleton] at inside
    rw [only, ← inside]

/-- A record whose keys are distinct has every field that is in it. -/
theorem has_of_mem {fields : List (String × Form)} (shape : form = record fields)
    (distinct : (fields.map Prod.fst).Nodup) {key : String} {value : Form}
    (mem : (key, value) ∈ fields) : form.Has keys key value := by
  rw [shape]
  exact ⟨mem, List.count_eq_one_of_mem distinct (List.mem_map_of_mem mem)⟩

/-- Each of distinct keys stands for the item at its place. -/
theorem forall₂_idxOf_iff (distinct : keys.Nodup) {items values : List Form}
    (size : items.length = keys.length) :
    List.Forall₂ (fun key value => items[keys.idxOf key]? = some value) keys values ↔
      items = values := by
  rw [List.forall₂_iff_get]
  constructor
  · rintro ⟨size', places⟩
    refine List.ext_getElem (size.trans size') fun i here there => ?_
    have place := places i (size ▸ here) there
    simp only [List.get_eq_getElem, distinct.idxOf_getElem] at place
    exact (List.getElem_eq_iff here).2 place
  · rintro rfl
    refine ⟨size.symm, fun i here there => ?_⟩
    simp only [List.get_eq_getElem, distinct.idxOf_getElem]
    exact List.getElem?_eq_getElem there

/-- What has none of the fields does not have them all. -/
theorem not_forall₂ {P : String → Form → Prop} (some_key : keys ≠ [])
    (none : ∀ key value, ¬ P key value) (values : List Form) : ¬ List.Forall₂ P keys values := by
  intro all
  cases all with
  | nil => exact some_key rfl
  | cons has _ => exact none _ _ has

/-- The fields are read together if the form has them all. -/
theorem fields?_eq_some_iff (distinct : keys.Nodup) (some_key : keys ≠ []) {values : List Form} :
    form.fields? keys = some values ↔ List.Forall₂ (form.Has keys) keys values := by
  cases form with
  | record fields =>
      rw [fields?, mapM_eq_some_iff]
      simp only [field?_eq_some_iff]
      rfl
  | row items =>
      rw [fields?]
      by_cases size : items.length = keys.length
      · have places : (row items).Has keys = fun key value =>
            items[keys.idxOf key]? = some value := by
          funext key value
          simp [Has, size]
        rw [if_pos size, Option.some_inj, places, forall₂_idxOf_iff distinct size]
      · rw [if_neg size]
        exact iff_of_false (by simp) (not_forall₂ some_key (fun _ _ has => size has.1) values)
  | number i => exact iff_of_false (by simp [fields?]) (not_forall₂ some_key (fun _ _ => id) values)
  | other => exact iff_of_false (by simp [fields?]) (not_forall₂ some_key (fun _ _ => id) values)

/-! ## Durations -/

/-- The keys of a duration. -/
def durationKeys : List String :=
  ["secs", "nanos"]

/-- The form stands for the duration: whole seconds as many as a word counts, and nanoseconds as
many as half a word counts, of which those of a second and more carry. -/
inductive StoresDuration : Form → Duration → Prop
  | mk {form : Form} {d : Duration} (secs nanos : Nat) (only : form.Only durationKeys)
      (has_secs : form.Has durationKeys "secs" (.number secs))
      (has_nanos : form.Has durationKeys "nanos" (.number nanos)) (secs_lt : secs < secondsLimit)
      (nanos_lt : nanos < UInt32.size) (total : d.nanoseconds = secs * nanosPerSecond + nanos) :
      StoresDuration form d

theorem below?_eq_some_iff {limit n : Nat} :
    form.below? limit = some n ↔ form = .number n ∧ n < limit := by
  cases form with
  | number i =>
      rw [below?, Option.ite_none_right_eq_some, Option.some_inj, number.injEq]
      omega
  | record fields => simp [below?]
  | row items => simp [below?]
  | other => simp [below?]

theorem allFields?_eq_some_iff (distinct : keys.Nodup) (some_key : keys ≠ []) {values : List Form} :
    form.allFields? keys = some values ↔
      form.Only keys ∧ List.Forall₂ (form.Has keys) keys values := by
  rw [← fields?_eq_some_iff distinct some_key]
  cases form with
  | record fields => simp [allFields?, Only, Option.ite_none_right_eq_some]
  | row items => simp [allFields?, Only]
  | number i => simp [allFields?, Only]
  | other => simp [allFields?, Only]

theorem Duration.of_eq_some_iff {secs nanos : Nat} {d : Duration} :
    Duration.of secs nanos = some d ↔ d.nanoseconds = secs * nanosPerSecond + nanos := by
  rw [Duration.of, Duration.ofNanoseconds]
  split
  · rename_i within
    rw [Option.some_inj]
    constructor
    · rintro rfl
      rfl
    · intro total
      cases d
      cases total
      rfl
  · rename_i beyond
    refine iff_of_false (by simp) fun total => ?_
    exact beyond (total ▸ d.inRange)

theorem duration?_eq_some_iff {d : Duration} :
    form.duration? = some d ↔ form.StoresDuration d := by
  have fields (values : List Form) : form.allFields? durationKeys = some values ↔
      form.Only durationKeys ∧ List.Forall₂ (form.Has durationKeys) durationKeys values :=
    allFields?_eq_some_iff (by decide) (by decide)
  constructor
  · intro read
    obtain ⟨values, given, numbers⟩ := Option.bind_eq_some_iff.1 read
    obtain ⟨only, all⟩ := (fields values).1 given
    obtain _ | ⟨has_secs, _ | ⟨has_nanos, ⟨⟩⟩⟩ := all
    obtain ⟨secs, below, rest⟩ := Option.bind_eq_some_iff.1 numbers
    obtain ⟨nanos, below', made⟩ := Option.bind_eq_some_iff.1 rest
    obtain ⟨rfl, secs_lt⟩ := below?_eq_some_iff.1 below
    obtain ⟨rfl, nanos_lt⟩ := below?_eq_some_iff.1 below'
    exact ⟨secs, nanos, only, has_secs, has_nanos, secs_lt, nanos_lt,
      Duration.of_eq_some_iff.1 made⟩
  · rintro ⟨secs, nanos, only, has_secs, has_nanos, secs_lt, nanos_lt, total⟩
    have given : form.allFields? durationKeys = some [number secs, number nanos] :=
      (fields _).2 ⟨only, .cons has_secs (.cons has_nanos .nil)⟩
    have below : (number secs).below? secondsLimit = some secs :=
      below?_eq_some_iff.2 ⟨rfl, secs_lt⟩
    have below' : (number nanos).below? UInt32.size = some nanos :=
      below?_eq_some_iff.2 ⟨rfl, nanos_lt⟩
    refine Option.bind_eq_some_iff.2 ⟨_, given, ?_⟩
    refine Option.bind_eq_some_iff.2 ⟨secs, below, ?_⟩
    exact Option.bind_eq_some_iff.2 ⟨nanos, below', Duration.of_eq_some_iff.2 total⟩

example : Form.duration? (.record [("nanos", .number 1000000007), ("secs", .number 1)]) =
    Duration.of 2 7 := by
  decide

example : Form.duration?
    (.record [("secs", .number 1), ("nanos", .number 0), ("secs", .number 1)]) = none := by
  decide

theorem storesDuration_ofDuration (d : Duration) : (ofDuration d).StoresDuration d := by
  have secs_lt : d.seconds < secondsLimit :=
    Nat.div_lt_of_lt_mul (Nat.mul_comm nanosPerSecond secondsLimit ▸ d.inRange)
  have nanos_lt : d.subsecond < nanosPerSecond := Nat.mod_lt _ (by decide)
  have half_word : nanosPerSecond < UInt32.size := by decide
  have distinct : durationKeys.Nodup := by decide
  have shape : ofDuration d = record _ := rfl
  refine ⟨d.seconds, d.subsecond, ?_, has_of_mem shape distinct (.head _),
    has_of_mem shape distinct (.tail _ (.head _)), secs_lt, Nat.lt_trans nanos_lt half_word, ?_⟩
  · simp [Only, ofDuration, durationKeys]
  · exact (Nat.div_add_mod' d.nanoseconds nanosPerSecond).symm

/-! ## One entry per operation -/

/-- The keys of the operations. -/
def operationKeys : List String :=
  Operation.all.map Operation.key

/-- The keys of a counter. -/
def counterKeys : List String :=
  operationKeys ++ ["time"]

theorem nodup_counterKeys : counterKeys.Nodup := by decide

theorem nodup_operationKeys : operationKeys.Nodup :=
  (List.nodup_append.1 nodup_counterKeys).1

end Form

/-- The entries of a chart in the order of the operations. -/
theorem Chart.map_get_all {α : Type} (c : Chart α) : Operation.all.map c.get = c.slots.toList := by
  have places : ∀ i : Fin 16, Operation.all[i.val]?.map Operation.index = some i := by decide
  refine List.ext_getElem (by simp [Operation.all]) fun i here there => ?_
  have short : i < 16 := by simpa using there
  have place := places ⟨i, short⟩
  rw [List.getElem?_eq_getElem (by simpa using here), Option.map_some, Option.some_inj] at place
  simp [Chart.get, place]

namespace Form

variable {form : Form} {α : Type}

/-- A chart is read of the forms of its entries in order. -/
theorem chart?_eq_some_iff {read : Form → Option α} {forms : List Form} {c : Chart α} :
    chart? read forms = some c ↔
      List.Forall₂ (fun form op => read form = some (c.get op)) forms Operation.all := by
  rw [← List.forall₂_map_right_iff (R := fun form v => read form = some v), ← mapM_eq_some_iff,
    c.map_get_all, chart?, Option.bind_eq_bind, Option.bind_eq_some_iff]
  constructor
  · rintro ⟨values, taken, made⟩
    split at made
    · cases made
      exact taken
    · cases made
  · intro taken
    refine ⟨_, taken, ?_⟩
    rw [dif_pos c.slots.length_toList]
    rfl

/-- Fields that are read one by one are there one by one. -/
theorem exists_forms_iff (ops : List Operation) {P : String → Form → Prop}
    {Q : Form → Operation → Prop} :
    (∃ forms, List.Forall₂ P (ops.map Operation.key) forms ∧ List.Forall₂ Q forms ops) ↔
      ∀ op ∈ ops, ∃ form, P op.key form ∧ Q form op := by
  induction ops with
  | nil => simp
  | cons op ops ih =>
      rw [List.forall_mem_cons, ← ih, List.map_cons]
      constructor
      · rintro ⟨_, _ | ⟨has, all⟩, _ | ⟨read, rest⟩⟩
        exact ⟨⟨_, has, read⟩, _, all, rest⟩
      · rintro ⟨⟨form, has, read⟩, forms, all, rest⟩
        exact ⟨form :: forms, .cons has all, .cons read rest⟩

/-- The form stands for the times: under the key of each operation is its time. -/
def StoresTimes (form : Form) (times : Chart Duration) : Prop :=
  ∀ op, ∃ time, form.Has operationKeys op.key time ∧ time.StoresDuration (times.get op)

theorem times?_eq_some_iff {times : Chart Duration} :
    form.times? = some times ↔ form.StoresTimes times := by
  have entries := exists_forms_iff Operation.all (P := form.Has operationKeys)
    (Q := fun form op => form.StoresDuration (times.get op))
  simp only [Operation.mem_all, true_implies] at entries
  rw [StoresTimes, ← entries, times?, Option.bind_eq_bind, Option.bind_eq_some_iff]
  refine exists_congr fun forms => and_congr ?_ ?_
  · exact fields?_eq_some_iff nodup_operationKeys (by decide)
  · simp only [chart?_eq_some_iff, duration?_eq_some_iff]

theorem calls_eq_some_iff {n : UInt64} :
    UInt64.ofNat <$> form.below? UInt64.size = some n ↔ form = .number n.toNat := by
  rw [Option.map_eq_map, Option.map_eq_some_iff]
  constructor
  · rintro ⟨k, below, rfl⟩
    obtain ⟨rfl, within⟩ := below?_eq_some_iff.1 below
    rw [UInt64.toNat_ofNat_of_lt' within]
  · rintro rfl
    exact ⟨n.toNat, below?_eq_some_iff.2 ⟨rfl, n.toNat_lt⟩, UInt64.ofNat_toNat⟩

end Form

/-! ## Counters -/

namespace Counter

open Form (counterKeys operationKeys nodup_counterKeys nodup_operationKeys)

/-- The form stands for the counter: under the key of each operation, and once, is the number of its
calls, and the times are in a form of their own.  Other fields do not matter. -/
structure StoredAs (c : Counter) (form : Form) : Prop where
  calls : ∀ op, form.Has counterKeys op.key (.number (c.calls.get op).toNat)
  times : ∃ times, form.Has counterKeys "time" times ∧ times.StoresTimes c.times

/-- A counter is read of the forms that stand for it, and of no others. -/
theorem ofForm?_eq_some_iff {form : Form} {c : Counter} :
    ofForm? form = some c ↔ c.StoredAs form := by
  have fields (values : List Form) : form.fields? counterKeys = some values ↔
      List.Forall₂ (form.Has counterKeys) counterKeys values :=
    Form.fields?_eq_some_iff nodup_counterKeys (by decide)
  have entries := Form.exists_forms_iff Operation.all (P := form.Has counterKeys)
    (Q := fun form op => form = .number (c.calls.get op).toNat)
  simp only [Operation.mem_all, true_implies, exists_eq_right] at entries
  have size : operationKeys.length = 16 := rfl
  constructor
  · intro read
    obtain ⟨forms, given, rest⟩ := Option.bind_eq_some_iff.1 read
    obtain ⟨calls, counted, rest'⟩ := Option.bind_eq_some_iff.1 rest
    obtain ⟨time, last, rest''⟩ := Option.bind_eq_some_iff.1 rest'
    obtain ⟨times, timed, made⟩ := Option.bind_eq_some_iff.1 rest''
    cases made
    have has := (fields forms).1 given
    refine ⟨entries.1 ⟨forms.take 16, ?_, ?_⟩, time, ?_, Form.times?_eq_some_iff.1 timed⟩
    · exact List.forall₂_take 16 has
    · simp only [Form.chart?_eq_some_iff, Form.calls_eq_some_iff] at counted
      exact counted
    · obtain ⟨within, same⟩ := List.getElem?_eq_some_iff.1 last
      have here := has.get (i := 16) (by decide) within
      rw [← same]
      exact here
  · rintro ⟨calls, time, has, timed⟩
    obtain ⟨forms, all, numbers⟩ := entries.2 calls
    have length : forms.length = 16 := by rw [← all.length_eq, List.length_map]; rfl
    have given : form.fields? counterKeys = some (forms ++ [time]) :=
      (fields _).2 (List.rel_append all (.cons has .nil))
    have counted : Form.chart? (fun f => UInt64.ofNat <$> f.below? UInt64.size)
        ((forms ++ [time]).take 16) = some c.calls := by
      rw [List.take_left' length]
      simp only [Form.chart?_eq_some_iff, Form.calls_eq_some_iff]
      exact numbers
    have last : (forms ++ [time])[16]? = some time := by simp [length]
    refine Option.bind_eq_some_iff.2 ⟨_, given, ?_⟩
    refine Option.bind_eq_some_iff.2 ⟨_, counted, ?_⟩
    refine Option.bind_eq_some_iff.2 ⟨_, last, ?_⟩
    exact Option.bind_eq_some_iff.2 ⟨_, Form.times?_eq_some_iff.2 timed, rfl⟩

/-! ## What is written -/

/-- Every operation is there under its key. -/
theorem mem_map_key {f : Operation → Form} (op : Operation) :
    (op.key, f op) ∈ Operation.all.map fun op => (op.key, f op) :=
  List.mem_map.2 ⟨op, Operation.mem_all op, rfl⟩

/-- What is written stands for what it was written from. -/
theorem storedAs_toForm (c : Counter) : c.StoredAs c.toForm := by
  let times : Form := .record (Operation.all.map fun op => (op.key, .ofDuration (c.times.get op)))
  have shape : c.toForm = .record _ := rfl
  have shape_times : times = .record _ := rfl
  refine ⟨fun op => ?_, times, ?_, fun op => ⟨_, ?_, Form.storesDuration_ofDuration _⟩⟩
  · exact Form.has_of_mem shape nodup_counterKeys (List.mem_append_left _ (mem_map_key op))
  · exact Form.has_of_mem shape nodup_counterKeys (List.mem_append_right _ (.head _))
  · exact Form.has_of_mem shape_times nodup_operationKeys (mem_map_key op)

/-! ## Loading -/

theorem load_eq_iff {register c : Counter} {form : Form} :
    register.load form = (c, true) ↔ c.StoredAs form := by
  rw [← ofForm?_eq_some_iff, load]
  cases ofForm? form with
  | none => simp
  | some stored => simp

theorem load_toForm (register c : Counter) : register.load c.toForm = (c, true) :=
  load_eq_iff.2 c.storedAs_toForm

/-- A counter that is written comes back, and is written as before.  A form is loaded exactly if it
stands for a counter, which is that counter and comes back from its own form, and a form that stands
for none leaves what was there. -/
theorem load_faithful (register : Counter) :
    (∀ c : Counter, register.load c.toForm = (c, true) ∧
      (register.load c.toForm).1.toForm = c.toForm) ∧
    (∀ (form : Form) (c : Counter), register.load form = (c, true) ↔ c.StoredAs form) ∧
    (∀ (form : Form) (other : Counter),
      other.load (register.load form).1.toForm = ((register.load form).1, true)) ∧
    ∀ form : Form, (∃ c : Counter, c.StoredAs form) ∨ register.load form = (register, false) := by
  refine ⟨fun c => ?_, fun form c => load_eq_iff, fun form other => load_toForm _ _, fun form => ?_⟩
  · rw [load_toForm]
    exact ⟨rfl, rfl⟩
  · rw [load]
    cases read : ofForm? form with
    | none => exact .inr rfl
    | some c => exact .inl ⟨c, ofForm?_eq_some_iff.1 read⟩

/-- A stored counter by its keys, with 1 to 16 calls in the order of reports, and with times of which
the nanoseconds carry.  The times come first, and a field that is no part of it last. -/
def sixteen : Form :=
  let keys := ["f", "grad_f", "f_grad_f", "f_g", "f_grad_f_g", "grad_f_grad_g_prod", "g",
    "grad_g_prod", "grad_gi", "grad_l", "hess_l_prod", "hess_l", "psi", "grad_psi",
    "grad_psi_from_y_hat", "psi_grad_psi"]
  let times := keys.zipIdx.map fun (key, i) =>
    (key, Form.record [("nanos", .number 1000000007), ("secs", .number i)])
  let calls := keys.zipIdx.map fun (key, i) => (key, Form.number (i + 1))
  .record (("time", .record times) :: calls.reverse ++ [("solver", .other)])

/-- Every operation is loaded from under its key. -/
theorem load_sixteen :
    ∃ c, c.StoredAs sixteen ∧ (zero.load c.toForm).1 = c ∧
      Operation.all.map (fun op => (c.calls.get op).toNat) =
        [1, 2, 3, 4, 5, 6, 7, 8, 9, 10, 11, 12, 13, 14, 15, 16] ∧
      Operation.all.map (fun op => (c.times.get op).nanoseconds) =
        (List.range 16).map fun i => (i + 1) * nanosPerSecond + 7 := by
  obtain ⟨written, stored, -, -⟩ := load_faithful zero
  have loaded : zero.load sixteen = ((zero.load sixteen).1, true) := by decide +kernel
  refine ⟨(zero.load sixteen).1, (stored _ _).1 loaded, ?_, ?_, ?_⟩
  · rw [(written _).1]
  · decide +kernel
  · decide +kernel

end Counter

end AugmentedLagrangian

/- # AugmentedLagrangian.Proofs.CallLog — a counter is the sum of its records

What a counter holds is, for each operation, a number of calls and a number of nanoseconds
(`Counter.amounts`).  Such amounts add up as words and numbers do, in any order.  Recording a call
adds one entry's amounts, adding another counter adds all of its amounts, and adding its times adds
the nanoseconds alone; each of them is a breach exactly if a time becomes too long
(`Counter.Yields`).

So the counter of a log is the sum over its records.  How the log was put together, and in which
order counters were added, cannot be seen in it (`Counter.tallies_log`).
-/
import Mathlib.Algebra.BigOperators.Group.List.Basic
import Mathlib.Algebra.Group.Pi.Basic
import Mathlib.Algebra.Group.Prod
import Mathlib.Data.UInt
import AugmentedLagrangian.Count.Counter
import AugmentedLagrangian.Proofs.MeritAgreement

namespace AugmentedLagrangian

set_option autoImplicit false

/-! ## Interleavings -/

/-- The third list is made of the first two, each in its own order. -/
inductive Interleaves {α : Type} : List α → List α → List α → Prop
  | nil : Interleaves [] [] []
  | first {a : α} {left right both : List α} (rest : Interleaves left right both) :
      Interleaves (a :: left) right (a :: both)
  | second {a : α} {left right both : List α} (rest : Interleaves left right both) :
      Interleaves left (a :: right) (a :: both)

namespace Interleaves

variable {α : Type}

theorem perm {left right both : List α} (merged : Interleaves left right both) :
    both.Perm (left ++ right) := by
  induction merged with
  | nil => exact .nil
  | first rest ih => exact ih.cons _
  | second rest ih => exact (ih.cons _).trans List.perm_middle.symm

theorem right_only (right : List α) : Interleaves [] right right := by
  induction right with
  | nil => exact .nil
  | cons a right ih => exact ih.second

/-- One list after the other is an interleaving. -/
theorem append (left right : List α) : Interleaves left right (left ++ right) := by
  induction left with
  | nil => exact right_only right
  | cons a left ih => exact ih.first

end Interleaves

/-! ## Lengths of time -/

namespace Duration

/-- More nanoseconds than any duration has. -/
def TooLong (n : Nat) : Prop :=
  ∀ d : Duration, d.nanoseconds < n

theorem tooLong_iff {n : Nat} : TooLong n ↔ secondsLimit * nanosPerSecond ≤ n := by
  constructor
  · intro longer
    by_contra fits
    exact Nat.lt_irrefl n (longer ⟨n, Nat.lt_of_not_le fits⟩)
  · exact fun limit d => Nat.lt_of_lt_of_le d.inRange limit

theorem ext {a b : Duration} (same : a.nanoseconds = b.nanoseconds) : a = b := by
  cases a
  cases b
  cases same
  rfl

theorem add?_eq_some {a b sum : Duration} (added : a.add? b = some sum) :
    sum.nanoseconds = a.nanoseconds + b.nanoseconds := by
  unfold add? ofNanoseconds at added
  split at added
  · cases added
    rfl
  · cases added

theorem add?_eq_none {a b : Duration} (refused : a.add? b = none) :
    TooLong (a.nanoseconds + b.nanoseconds) := by
  unfold add? ofNanoseconds at refused
  split at refused
  · cases refused
  · rename_i excess
    exact tooLong_iff.mpr (Nat.le_of_not_lt excess)

/-- The two parts of a duration are its nanoseconds in normal form. -/
theorem seconds_subsecond (d : Duration) :
    d.seconds * nanosPerSecond + d.subsecond = d.nanoseconds ∧ d.subsecond < nanosPerSecond :=
  ⟨Nat.div_add_mod' .., Nat.mod_lt _ (by decide)⟩

end Duration

/-! ## Amounts -/

/-- Calls and nanoseconds by operation. -/
abbrev Amounts := Operation → UInt64 × Nat

namespace Amounts

/-- No time is too long. -/
def Fit (a : Amounts) : Prop :=
  ∀ op, ¬ Duration.TooLong (a op).2

theorem Fit.left {a b : Amounts} (fit : (a + b).Fit) : a.Fit :=
  fun op longer => fit op fun d => Nat.lt_of_lt_of_le (longer d) (Nat.le_add_right ..)

/-- One call of an operation. -/
def entry (op : Operation) (time : Duration) : Amounts :=
  Pi.single op (1, time.nanoseconds)

/-- The nanoseconds without the calls. -/
def timesOnly (a : Amounts) : Amounts :=
  fun op => (0, (a op).2)

/-- The calls of all operations. -/
def total (a : Amounts) : UInt64 :=
  (Operation.all.map fun op => (a op).1).sum

@[simp] theorem total_add (a b : Amounts) : (a + b).total = a.total + b.total :=
  List.sum_map_add

theorem entry_fst (op other : Operation) (time : Duration) :
    (entry op time other).1 = if other = op then 1 else 0 := by
  by_cases same : other = op
  · subst same
    simp [entry]
  · simp [entry, same]

@[simp] theorem total_entry (op : Operation) (time : Duration) : (entry op time).total = 1 := by
  simp only [total, entry_fst]
  cases op <;> rfl

end Amounts

namespace Counter

/-- What a counter holds. -/
def amounts (c : Counter) : Amounts :=
  fun op => (c.calls.get op, (c.times.get op).nanoseconds)

theorem amounts_fit (c : Counter) : c.amounts.Fit :=
  fun op longer => Nat.lt_irrefl _ (longer (c.times.get op))

theorem amounts_injective {c d : Counter} (same : c.amounts = d.amounts) : c = d := by
  have calls : c.calls = d.calls := Chart.ext_get fun op => congrArg Prod.fst (congrFun same op)
  have times : c.times = d.times :=
    Chart.ext_get fun op => Duration.ext (congrArg Prod.snd (congrFun same op))
  cases c
  cases d
  cases calls
  cases times
  rfl

@[simp] theorem amounts_zero : zero.amounts = 0 := by
  funext op
  simp only [amounts, zero, Chart.get_const]
  rfl

theorem total_eq (c : Counter) : c.total = c.amounts.total := by
  rw [total, Amounts.total, List.sum_eq_foldl, List.foldl_map]
  rfl

/-! ## What adding leaves -/

/-- The addition ends with a counter of these amounts, or is a breach if a time would be too long. -/
inductive Yields : Written Counter Unit → Amounts → Prop
  | done (c : Counter) : Yields (.done c ()) c.amounts
  | breach (kept : Counter) {a : Amounts} (excess : ¬ a.Fit) : Yields (.failed kept .breach) a

namespace Yields

variable {w w' : Written Counter Unit} {a b : Amounts}

theorem done_iff (yields : Yields w a) (c : Counter) : w = .done c () ↔ c.amounts = a := by
  cases yields with
  | done d =>
      constructor
      · intro same
        cases same
        rfl
      · intro same
        rw [amounts_injective same]
  | breach kept excess =>
      constructor
      · nofun
      · intro same
        exact absurd (same ▸ c.amounts_fit) excess

theorem happened_iff (yields : Yields w a) : w.happened = false ↔ ¬ a.Fit := by
  cases yields with
  | done c => exact ⟨nofun, fun excess => absurd c.amounts_fit excess⟩
  | breach kept excess => exact ⟨fun _ => excess, fun _ => rfl⟩

theorem tooLong_iff (yields : Yields w a) :
    w.happened = false ↔ ∃ op, Duration.TooLong (a op).2 := by
  rw [yields.happened_iff, Amounts.Fit]
  exact not_forall_not

theorem exists_done (yields : Yields w a) (fit : a.Fit) : ∃ c, w = .done c () := by
  cases yields with
  | done c => exact ⟨c, rfl⟩
  | breach kept excess => exact absurd fit excess

theorem of_eq (yields : Yields w a) (same : a = b) : Yields w b :=
  same ▸ yields

/-- One addition after another. -/
theorem andThen {next : Counter → Unit → Written Counter Unit} (yields : Yields w a)
    (then_yields : ∀ c, c.amounts = a → Yields (next c ()) (a + b)) :
    Yields (w.andThen next) (a + b) := by
  cases yields with
  | done c => exact then_yields c rfl
  -- amounts only grow, so what was too long stays too long
  | breach kept excess => exact .breach kept fun fit => excess fit.left

end Yields

/-- Two additions end with the same counter, or both are a breach. -/
structure Agree (w w' : Written Counter Unit) : Prop where
  done : ∀ c, w = .done c () ↔ w' = .done c ()
  happened : w.happened = w'.happened

theorem Yields.agree {w w' : Written Counter Unit} {a : Amounts} (yields : Yields w a)
    (yields' : Yields w' a) : Agree w w' where
  done c := (yields.done_iff c).trans (yields'.done_iff c).symm
  happened := by
    have same : w.happened = false ↔ w'.happened = false :=
      yields.happened_iff.trans yields'.happened_iff.symm
    cases first : w.happened <;> cases second : w'.happened <;> simp_all

/-! ## Recording and adding -/

/-- Adds a time to an operation's and leaves the rest of the counter as it is. -/
def charged (c : Counter) (op : Operation) (time : Duration) : Written Counter Unit :=
  (charge c.times op time).on fun times => { c with times }

theorem charged_yields (c : Counter) (op : Operation) (time : Duration) :
    Yields (c.charged op time) (c.amounts + Pi.single op (0, time.nanoseconds)) := by
  unfold charged charge
  cases added : (c.times.get op).add? time with
  | none =>
      refine .breach c fun fit => fit op ?_
      simpa [amounts] using Duration.add?_eq_none added
  | some sum =>
      refine (Yields.done { c with times := c.times.set op sum }).of_eq ?_
      funext other
      by_cases same : other = op
      · subst same
        simp [amounts, Duration.add?_eq_some added]
      · simp [amounts, Chart.get_set, same]

theorem record_yields (c : Counter) (op : Operation) (time : Duration) :
    Yields (c.record op time) (c.amounts + Amounts.entry op time) := by
  refine ((c.tick op).charged_yields op time).of_eq ?_
  funext other
  by_cases same : other = op
  · subst same
    simp [amounts, tick, Amounts.entry]
  · simp [amounts, tick, Chart.get_set, Amounts.entry, same]

/-- Adding the times of one more operation charges it first. -/
theorem chargeAll_cons (c : Counter) (other : Chart Duration) (op : Operation)
    (ops : List Operation) :
    (chargeAll other (op :: ops) c.times).on (fun times => { c with times }) =
      (c.charged op (other.get op)).andThen fun mid _ =>
        (chargeAll other ops mid.times).on fun times => { mid with times } := by
  rw [chargeAll, charged]
  rcases (charge c.times op (other.get op)).done_or_failed with ⟨kept, ⟨⟩, eq⟩ | ⟨kept, e, eq⟩
  all_goals
    rw [eq]
    rfl

/-- The nanoseconds of the listed operations, each as often as it is listed. -/
def listed (other : Chart Duration) (ops : List Operation) : Amounts :=
  fun op => (0, ops.count op * (other.get op).nanoseconds)

theorem listed_cons (other : Chart Duration) (op : Operation) (ops : List Operation) :
    listed other (op :: ops) = Pi.single op (0, (other.get op).nanoseconds) + listed other ops := by
  funext o
  by_cases same : o = op
  · subst same
    simp [listed, Nat.add_mul, Nat.add_comm]
  · simp [listed, same, List.count_cons_of_ne (Ne.symm same)]

theorem chargeAll_yields (other : Chart Duration) (ops : List Operation) (c : Counter) :
    Yields ((chargeAll other ops c.times).on fun times => { c with times })
      (c.amounts + listed other ops) := by
  induction ops generalizing c with
  | nil =>
      refine (Yields.done c).of_eq ?_
      funext op
      simp [listed]
  | cons op ops ih =>
      rw [chargeAll_cons, listed_cons, ← add_assoc]
      refine (c.charged_yields op (other.get op)).andThen fun mid held => ?_
      rw [← held]
      exact ih mid

theorem addTimes_yields (c other : Counter) :
    Yields (c.addTimes other) (c.amounts + other.amounts.timesOnly) := by
  have once : ∀ op, Operation.all.count op = 1 := fun op => by cases op <;> rfl
  refine (chargeAll_yields other.times Operation.all c).of_eq ?_
  funext op
  simp [listed, once, amounts, Amounts.timesOnly]

theorem add_yields (c other : Counter) : Yields (c.add other) (c.amounts + other.amounts) := by
  refine (addTimes_yields
    { c with calls := .ofFn fun op => c.calls.get op + other.calls.get op } other).of_eq ?_
  funext op
  simp [amounts, Amounts.timesOnly]

/-! ## Sums of counters -/

/-- Adding counters is associative and commutative, the empty counter adds nothing, and adding times
leaves the numbers of calls alone.  The only breach is a time that becomes too long. -/
structure AddsUp : Prop where
  comm : ∀ a b : Counter, Agree (a.add b) (b.add a)
  assoc : ∀ a b c : Counter, Agree ((a.add b).andThen fun ab _ => ab.add c)
    ((b.add c).andThen fun bc _ => a.add bc)
  add_zero : ∀ a : Counter, a.add zero = .done a ()
  zero_add : ∀ a : Counter, zero.add a = .done a ()
  addTimes_calls : ∀ a b : Counter, (a.addTimes b).kept.calls = a.calls
  addTimes_times : ∀ a b sum : Counter, a.addTimes b = .done sum () → ∀ op,
    (sum.times.get op).nanoseconds = (a.times.get op).nanoseconds + (b.times.get op).nanoseconds
  record_breach : ∀ (c : Counter) (op : Operation) (time : Duration),
    (c.record op time).happened = false ↔
      Duration.TooLong ((c.times.get op).nanoseconds + time.nanoseconds)
  add_breach : ∀ a b : Counter, (a.add b).happened = false ↔ ∃ op,
    Duration.TooLong ((a.times.get op).nanoseconds + (b.times.get op).nanoseconds)
  addTimes_breach : ∀ a b : Counter, (a.addTimes b).happened = false ↔ ∃ op,
    Duration.TooLong ((a.times.get op).nanoseconds + (b.times.get op).nanoseconds)

theorem add_assoc_agree (a b c : Counter) : Agree ((a.add b).andThen fun ab _ => ab.add c)
    ((b.add c).andThen fun bc _ => a.add bc) := by
  have left : Yields ((a.add b).andThen fun ab _ => ab.add c)
      (a.amounts + b.amounts + c.amounts) :=
    (a.add_yields b).andThen fun ab sum => sum ▸ ab.add_yields c
  -- here `a` is added last, so the sum comes out in another order
  have right : Yields ((b.add c).andThen fun bc _ => a.add bc)
      (b.amounts + c.amounts + a.amounts) :=
    (b.add_yields c).andThen fun bc sum => by
      rw [add_comm, ← sum]
      exact a.add_yields bc
  rw [add_comm, ← add_assoc] at right
  exact left.agree right

theorem record_breach_iff (c : Counter) (op : Operation) (time : Duration) :
    (c.record op time).happened = false ↔
      Duration.TooLong ((c.times.get op).nanoseconds + time.nanoseconds) := by
  rw [(c.record_yields op time).tooLong_iff]
  constructor
  · rintro ⟨other, longer⟩
    by_cases same : other = op
    · subst same
      simpa [amounts, Amounts.entry] using longer
    · -- the time of another operation is the counter's own
      refine absurd longer fun longer => c.amounts_fit other ?_
      simpa [Amounts.entry, same] using longer
  · intro longer
    exact ⟨op, by simpa [amounts, Amounts.entry] using longer⟩

theorem addsUp : AddsUp where
  comm a b := (a.add_yields b).agree (add_comm b.amounts a.amounts ▸ b.add_yields a)
  assoc := add_assoc_agree
  add_zero a := ((a.add_yields zero).done_iff a).mpr (by simp)
  zero_add a := ((zero.add_yields a).done_iff a).mpr (by simp)
  addTimes_calls _ _ := rfl
  addTimes_times a b sum added op := by
    have held := ((a.addTimes_yields b).done_iff sum).mp added
    exact congrArg Prod.snd (congrFun held op)
  record_breach := record_breach_iff
  add_breach a b := (a.add_yields b).tooLong_iff
  addTimes_breach a b := (a.addTimes_yields b).tooLong_iff

/-! ## The counter of a log -/

/-- Records the calls of a log, one after the other. -/
def recordAll : List (Operation × Duration) → Counter → Written Counter Unit
  | [], c => .done c ()
  | (op, time) :: log, c => (c.record op time).andThen fun c _ => recordAll log c

/-- How often a log has an operation. -/
def callsIn (log : List (Operation × Duration)) (op : Operation) : Nat :=
  (log.map Prod.fst).count op

/-- The nanoseconds of an operation in a log. -/
def nanosIn (log : List (Operation × Duration)) (op : Operation) : Nat :=
  ((log.filter fun called => called.1 = op).map fun called => called.2.nanoseconds).sum

/-- The amounts of a log. -/
def logged (log : List (Operation × Duration)) : Amounts :=
  (log.map fun called => Amounts.entry called.1 called.2).sum

theorem logged_cons (called : Operation × Duration) (log : List (Operation × Duration)) :
    logged (called :: log) = Amounts.entry called.1 called.2 + logged log := rfl

theorem logged_apply (log : List (Operation × Duration)) (op : Operation) :
    logged log op = (UInt64.ofNat (callsIn log op), nanosIn log op) := by
  induction log with
  | nil => rfl
  | cons called log ih =>
      rw [logged_cons, Pi.add_apply, ih]
      by_cases same : called.1 = op
      · subst same
        simp [Amounts.entry, callsIn, nanosIn, UInt64.add_comm]
      · have other : op ≠ called.1 := Ne.symm same
        simp [Amounts.entry, callsIn, nanosIn, same, other]

theorem total_logged (log : List (Operation × Duration)) :
    (logged log).total = UInt64.ofNat log.length := by
  induction log with
  | nil => rfl
  | cons called log ih =>
      rw [logged_cons, Amounts.total_add, ih]
      simp [UInt64.add_comm]

theorem logged_perm {left right both : List (Operation × Duration)}
    (same : both.Perm (left ++ right)) : logged both = logged left + logged right := by
  rw [logged, (same.map _).sum_eq, List.map_append, List.sum_append]
  rfl

theorem recordAll_yields (log : List (Operation × Duration)) (c : Counter) :
    Yields (recordAll log c) (c.amounts + logged log) := by
  induction log generalizing c with
  | nil =>
      exact (Yields.done c).of_eq (add_zero c.amounts).symm
  | cons called log ih =>
      rw [logged_cons, ← add_assoc]
      refine (c.record_yields called.1 called.2).andThen fun mid held => ?_
      rw [← held]
      exact ih mid

theorem counter_yields (log : List (Operation × Duration)) :
    Yields (recordAll log zero) (logged log) := by
  have yields := recordAll_yields log zero
  rwa [amounts_zero, zero_add] at yields

/-- The counters of two logs, added. -/
def addLogs (left right : List (Operation × Duration)) : Written Counter Unit :=
  (recordAll left zero).andThen fun a _ => (recordAll right zero).andThen fun b _ => a.add b

theorem addLogs_yields (left right : List (Operation × Duration)) :
    Yields (addLogs left right) (logged left + logged right) := by
  refine (counter_yields left).andThen fun a held => ?_
  rw [add_comm]
  refine (counter_yields right).andThen fun b held' => ?_
  rw [← held, ← held', add_comm]
  exact a.add_yields b

theorem agree_of_perm {left right both : List (Operation × Duration)}
    (same : both.Perm (left ++ right)) : Agree (recordAll both zero) (addLogs left right) :=
  (logged_perm same ▸ counter_yields both).agree (addLogs_yields left right)

/-- The counter of the log: calls and times of each operation with the times in normal form, and
what it is made of. -/
structure Tallies (log : List (Operation × Duration)) : Prop where
  /-- There is a counter unless the log has too much time for some operation. -/
  breach : (recordAll log zero).happened = false ↔ ∃ op, Duration.TooLong (nanosIn log op)
  exists_counter : (∀ op, ¬ Duration.TooLong (nanosIn log op)) →
    ∃ c, recordAll log zero = .done c ()
  calls : ∀ c, recordAll log zero = .done c () → ∀ op, (c.calls.get op).toNat = callsIn log op
  times : ∀ c, recordAll log zero = .done c () → ∀ op,
    (c.times.get op).seconds * nanosPerSecond + (c.times.get op).subsecond = nanosIn log op ∧
      (c.times.get op).subsecond < nanosPerSecond
  total : ∀ c, recordAll log zero = .done c () → c.total.toNat = log.length
  concatenated : ∀ left right, log = left ++ right → Agree (recordAll log zero) (addLogs left right)
  interleaved : ∀ left right, Interleaves left right log →
    Agree (recordAll log zero) (addLogs left right)

theorem callsIn_le (log : List (Operation × Duration)) (op : Operation) :
    callsIn log op ≤ log.length := by
  rw [← log.length_map Prod.fst]
  exact List.count_le_length

/-- The counter of a log that a word can count is the sum over its records, however the log is taken
apart, and sums of counters do not depend on how they are added. -/
theorem tallies_log (log : List (Operation × Duration)) (counted : log.length < 2 ^ 64) :
    Tallies log ∧ AddsUp := by
  have yields := counter_yields log
  have held : ∀ c, recordAll log zero = .done c () → c.amounts = logged log :=
    fun c done => (yields.done_iff c).mp done
  refine ⟨⟨?breach, ?exists_counter, ?calls, ?times, ?total, ?concatenated, ?interleaved⟩, addsUp⟩
  case breach =>
    rw [yields.tooLong_iff]
    simp only [logged_apply]
  case exists_counter =>
    intro fits
    refine yields.exists_done fun op => ?_
    rw [logged_apply]
    exact fits op
  case calls =>
    intro c done op
    have entry := congrArg Prod.fst (congrFun (held c done) op)
    rw [logged_apply] at entry
    change c.calls.get op = _ at entry
    rw [entry]
    exact UInt64.toNat_ofNat_of_lt' (Nat.lt_of_le_of_lt (callsIn_le log op) counted)
  case times =>
    intro c done op
    have entry := congrArg Prod.snd (congrFun (held c done) op)
    rw [logged_apply] at entry
    change (c.times.get op).nanoseconds = nanosIn log op at entry
    rw [← entry]
    exact (c.times.get op).seconds_subsecond
  case total =>
    intro c done
    rw [total_eq, held c done, total_logged]
    exact UInt64.toNat_ofNat_of_lt' counted
  case concatenated =>
    rintro left right rfl
    exact agree_of_perm (Interleaves.append left right).perm
  case interleaved =>
    intro left right merged
    exact agree_of_perm merged.perm

/-- Costs of 0.6 and 0.7 seconds and a merit value in between that took no time. -/
def shortLog : List (Operation × Duration) :=
  [(.cost, ⟨600000000, by decide⟩), (.merit, .zero), (.cost, ⟨700000000, by decide⟩)]

/-- The short log counts two costs of 1.3 seconds, and it is the costs and the merit value added. -/
theorem tallies_shortLog :
    ∃ c, recordAll shortLog zero = .done c () ∧
      (c.calls.get .cost).toNat = 2 ∧ (c.times.get .cost).seconds = 1 ∧
      (c.times.get .cost).subsecond = 300000000 ∧ c.total.toNat = 3 ∧
      addLogs [(.cost, ⟨600000000, by decide⟩), (.cost, ⟨700000000, by decide⟩)]
        [(.merit, .zero)] = .done c () := by
  obtain ⟨tallies, -⟩ := tallies_log shortLog (by decide)
  have fits : ∀ op, ¬ Duration.TooLong (nanosIn shortLog op) := by
    intro op
    rw [Duration.tooLong_iff]
    cases op <;> decide
  obtain ⟨c, done⟩ := tallies.exists_counter fits
  have calls : callsIn shortLog .cost = 2 := by decide
  have nanos : nanosIn shortLog .cost = 1300000000 := by decide
  obtain ⟨sum, normal⟩ := nanos ▸ tallies.times c done .cost
  have merged : Interleaves _ _ shortLog := .first (.second (.first .nil))
  unfold nanosPerSecond at sum normal
  exact ⟨c, done, calls ▸ tallies.calls c done .cost, by omega, by omega, tallies.total c done,
    ((tallies.interleaved _ _ merged).done c).mp done⟩

end Counter

end AugmentedLagrangian

/- # AugmentedLagrangian.Proofs.Truncation — observers and limits only cut a solve short

What an iteration does up to its event depends neither on who watches, nor on the clock, nor on how
many iterations are left (`Evaluated.vary`), and the relations that say what follows determine it
(`Ends.iterate_eq`, `Continues.iterate_eq`).  So a solve that is watched goes through the snapshots of
the one that nobody watches, as long as neither time nor limit ends it, until the observer asks for
an end and the iteration has not converged.

`Truncates` compares the rounds of the two from one snapshot on, with possibly fewer iterations
allowed to the one that is watched.  Two solves with different limits both compare with the one that
nobody watches and that has the larger limit, so the shorter one's rounds are the longer one's first
(`Truncates.take_rounds`).
-/
import AugmentedLagrangian.Inner.Replay
import AugmentedLagrangian.Proofs.Double
import AugmentedLagrangian.Proofs.Variants

namespace AugmentedLagrangian

set_option autoImplicit false

variable {R S O P : Type}

/-- The events of a run, in order. -/
def Run.events (run : Run R S O) : List (Event R) :=
  run.rounds.filterMap Round.event

/-- The solution that the event shows. -/
def Event.solution (e : Event R) (status : Status) (outerIterations : Nat)
    (innerIterations : UInt64) : Solution R :=
  ⟨status, e.x, e.y, e.weights, e.normE, e.tolerance, outerIterations, innerIterations⟩

/-- An observer in the state `watcher` first asks for an end at number `k` of these events, which is
the last argument. -/
inductive Observer.FirstStop {E : Type} (watch : Observer O E Action) :
    (watcher : O) → List E → (k : Nat) → E → Prop
  | here {watcher : O} {e : E} {es : List E}
      (stops : (watch.observe watcher e).2 = some .stopEarly) : FirstStop watch watcher (e :: es) 0 e
  | later {watcher : O} {e e' : E} {es : List E} {k : Nat}
      (goesOn : (watch.observe watcher e).2 ≠ some .stopEarly)
      (rest : FirstStop watch (watch.observe watcher e).1 es k e') :
      FirstStop watch watcher (e :: es) (k + 1) e'

theorem Observer.FirstStop.unique {E : Type} {watch : Observer O E Action} {watcher : O}
    {es : List E} {j k : Nat} {e e' : E} (first : watch.FirstStop watcher es j e)
    (second : watch.FirstStop watcher es k e') : j = k ∧ e = e' := by
  induction first generalizing k with
  | here stops =>
      cases second with
      | here => exact ⟨rfl, rfl⟩
      | later goesOn => exact absurd stops goesOn
  | later goesOn rest ih =>
      cases second with
      | here stops => exact absurd stops goesOn
      | later _ rest' => exact (ih rest').imp (congrArg (· + 1)) id

/-! ## One run among the rounds of another -/

theorem Observer.FirstStop.lt_length {E : Type} {watch : Observer O E Action} {watcher : O}
    {es : List E} {k : Nat} {e : E} (first : watch.FirstStop watcher es k e) : k < es.length := by
  induction first with
  | here => exact Nat.succ_pos _
  | later _ _ ih => exact Nat.succ_lt_succ ih

/-- The run of a solve that is watched, and allowed `remaining` iterations, against the run of one
that is not, and allowed `remaining'`, from iteration `k` on: it is stopped at the first request that
is not overruled by convergence, or goes through all rounds that it is allowed. -/
inductive Truncates (watch : Observer O (Event R) Action) (converges : Event R → Prop)
    (watcher : O) (past : List (Round R)) (k remaining remaining' : Nat) (rest : List (Round R))
    (free : Run R S Unit) (run : Run R S O) : Prop
  | stopped {j : Nat} {e : Event R} {inner : UInt64}
      (first : watch.FirstStop watcher (rest.filterMap Round.event) j e) (within : j < remaining)
      (unconverged : ¬ converges e)
      (rounds : run.rounds = past.reverse ++ rest.take (j + 1))
      (events : (rest.take (j + 1)).filterMap Round.event =
        (rest.filterMap Round.event).take (j + 1))
      (outcome : run.outcome = .ok (e.solution .stoppedByObserver (k + j + 1) inner))
  | whole
      (overruled : ∀ {j e}, watch.FirstStop watcher (rest.filterMap Round.event) j e →
        j < remaining → converges e)
      (rounds : run.rounds = past.reverse ++ rest.take remaining)
      (same : remaining = remaining' → run.outcome = free.outcome ∧ run.inner = free.inner)

namespace Truncates

variable {watch : Observer O (Event R) Action} {converges : Event R → Prop} {watcher : O}
variable {past rest : List (Round R)} {k remaining remaining' : Nat}
variable {free : Run R S Unit} {run run' : Run R S O}

/-- A last round that is the same for both, and shows no request that counts. -/
theorem of_last {r : Round R}
    (overruled : ∀ e, r.event = some e → (watch.observe watcher e).2 = some .stopEarly →
      converges e)
    (rounds : run.rounds = past.reverse ++ [r]) (outcome : run.outcome = free.outcome)
    (inner : run.inner = free.inner) :
    Truncates watch converges watcher past k (remaining + 1) remaining' [r] free run := by
  refine .whole ?_ (by rw [rounds, List.take_of_length_le (by simp)]) fun _ => ⟨outcome, inner⟩
  intro j e first _
  cases event : r.event with
  | none =>
      rw [List.filterMap_cons_none event] at first
      cases first
  | some e' =>
      rw [List.filterMap_cons_some event] at first
      cases first with
      | here stops => exact overruled e event stops
      | later _ rest => cases rest

/-- An iteration after which both go on puts its round in front. -/
theorem cons {r : Round R} {e : Event R} (event : r.event = some e)
    (goesOn : (watch.observe watcher e).2 ≠ some .stopEarly)
    (truncates : Truncates watch converges (watch.observe watcher e).1 (r :: past) (k + 1) remaining
      remaining' rest free run) :
    Truncates watch converges watcher past k (remaining + 1) (remaining' + 1) (r :: rest) free
      run := by
  have inFront : ∀ n, (r :: past).reverse ++ rest.take n = past.reverse ++ (r :: rest).take (n + 1) :=
    fun n => by simp
  cases truncates with
  | @stopped j e' inner first within unconverged rounds events outcome =>
      have number : k + 1 + j + 1 = k + (j + 1) + 1 := by omega
      refine .stopped (j := j + 1) ?_ (Nat.succ_lt_succ within) unconverged
        (rounds.trans (inFront _)) ?_ (number ▸ outcome)
      · rw [List.filterMap_cons_some event]
        exact .later goesOn first
      · rw [List.take_succ_cons, List.filterMap_cons_some event, List.filterMap_cons_some event,
          events, List.take_succ_cons]
  | whole overruled rounds same =>
      refine .whole ?_ (rounds.trans (inFront _)) fun equal => same (Nat.succ.inj equal)
      intro j e' first within
      rw [List.filterMap_cons_some event] at first
      cases first with
      | here stops => exact absurd stops goesOn
      | later _ rest => exact overruled rest (Nat.lt_of_succ_lt_succ within)

/-- Of two runs among the rounds of one, that with fewer iterations has the other's first rounds. -/
theorem take_rounds (shorter : Truncates watch converges watcher [] k remaining remaining' rest free run)
    (longer : Truncates watch converges watcher [] k remaining' remaining' rest free run')
    (le : remaining ≤ remaining') : run.rounds = run'.rounds.take remaining := by
  cases shorter with
  | stopped first within unconverged rounds =>
      cases longer with
      | stopped first' _ _ rounds' =>
          obtain ⟨rfl, -⟩ := first.unique first'
          rw [rounds, rounds']
          simp [List.take_take]
          omega
      | whole overruled => exact absurd (overruled first (by omega)) unconverged
  | whole overruled rounds =>
      cases longer with
      | @stopped j e inner first' within unconverged rounds' =>
          have late : remaining ≤ j := Nat.le_of_not_lt fun within =>
            unconverged (overruled first' within)
          rw [rounds, rounds']
          simp [List.take_take]
          omega
      | whole _ rounds' =>
          rw [rounds, rounds']
          simp [List.take_take]
          omega

end Truncates

variable [Scalar R]

/-- The violation and the stationarity that the event shows are within the tolerances. -/
def Event.Converges (e : Event R) (settings : OuterSettings R) : Prop :=
  e.normE ≤ settings.delta ∧ e.inner.stationarity ≤ settings.epsilon

namespace Task

variable {t : Task R S O}

/-! ## What an observer sees -/

/-- An iteration that comes to its event shows it in the run. -/
theorem Evaluated.event_mem {a : Snapshot R S O} (v : t.Evaluated a) (remaining k : Nat) :
    v.event k ∈ (t.iterate (remaining + 1) k a).events := by
  obtain ⟨rest, rounds⟩ := v.rounds_iterate remaining k
  rw [Run.events, rounds, List.mem_filterMap]
  exact ⟨v.round k, List.mem_append_left rest (List.mem_reverse.2 List.mem_cons_self), rfl⟩

/-- An iteration that ends the solve without an event leaves the observer as it was, and one that
comes to its event shows it to the observer. -/
theorem Ends.watcher_eq {k : Nat} {a : Snapshot R S O} {run : Run R S O} (ends : t.Ends k a run)
    {r : Round R} (rounds : run.rounds = a.past.reverse ++ [r]) :
    run.watcher = (t.watch.drive a.watcher r.event.toList).1 := by
  cases ends with
  | refused => rw [round_unique rounds]; rfl
  | notFinite => rw [round_unique rounds]; rfl
  | unevaluated => rw [round_unique rounds]; rfl
  | converged => rw [round_unique rounds]; rfl
  | stopped => rw [round_unique rounds]; rfl
  | timedOut => rw [round_unique rounds]; rfl
  | unweighted => rw [round_unique rounds]; rfl

/-- The observer of a run is driven by the events of the rounds that the run adds. -/
theorem watcher_iterate (remaining k : Nat) (a : Snapshot R S O) :
    ∃ rest, (t.iterate remaining k a).rounds = a.past.reverse ++ rest ∧
      (t.iterate remaining k a).watcher =
        (t.watch.drive a.watcher (rest.filterMap Round.event)).1 := by
  induction remaining generalizing k a with
  | zero => exact ⟨[], (List.append_nil _).symm, rfl⟩
  | succ remaining ih =>
      rcases t.iterate_succ remaining k a with ends | ⟨b, continues, same⟩
      · obtain ⟨r, rounds, -⟩ := ends.rounds_eq
        refine ⟨[r], rounds, ?_⟩
        rw [ends.watcher_eq rounds]
        cases event : r.event with
        | none => rw [List.filterMap_cons_none event]; rfl
        | some e => rw [List.filterMap_cons_some event]; rfl
      · cases continues with
        | next v _ _ _ advanced =>
            obtain ⟨rest, rounds, watcher⟩ := ih (k + 1) _
            refine ⟨v.round k :: rest, ?_, ?_⟩
            · rw [same, rounds, v.rounds_eq, List.reverse_cons, List.append_assoc]
              rfl
            · rw [same, watcher]
              rfl

/-- The observer of a solve is driven by the events of its run. -/
theorem watcher_run (layers : List Layer) (x y : List R) (solver : S) (watcher : O) :
    (t.run layers x y solver watcher).watcher =
      (t.watch.drive watcher (t.run layers x y solver watcher).events).1 := by
  rw [run_eq]
  rcases t.opening x y with e | weights
  · rfl
  · obtain ⟨rest, rounds, watched⟩ :=
      t.watcher_iterate t.settings.maxIter 0 (t.first x y weights solver watcher)
    rw [Run.events, rounds]
    exact watched

/-! ## The solve that nobody watches -/

variable (t) in
/-- The task without an observer, with its own clock and limit. -/
def unobserved (clock : Nat → Nat) (limit : Nat) : Task R S Unit :=
  t.variant .silent clock limit

variable (t) in
/-- The task with its own clock and limit. -/
def limited (clock : Nat → Nat) (limit : Nat) : Task R S O :=
  t.variant t.watch clock limit

section Unobserved

variable {clock : Nat → Nat} {limit k remaining remaining' : Nat} {a : Snapshot R S O}

variable (t) in
/-- The run, which is watched, against the rest of the solve that nobody watches, from the same
snapshot on. -/
def TruncatesFrom (clock : Nat → Nat) (limit k remaining remaining' : Nat) (a : Snapshot R S O)
    (run : Run R S O) : Prop :=
  ∃ rest,
    ((t.unobserved clock limit).iterate remaining' k (a.watchedBy ())).rounds =
      a.past.reverse ++ rest ∧
    Truncates t.watch (fun e => e.Converges t.settings) a.watcher a.past k remaining remaining' rest
      ((t.unobserved clock limit).iterate remaining' k (a.watchedBy ())) run

/-- Both end in the same way, and the round shows no request that counts. -/
theorem truncatesFrom_of_last {run : Run R S O} {free : Run R S Unit} {r : Round R}
    (ends : (t.unobserved clock limit).Ends k (a.watchedBy ()) free)
    (rounds : run.rounds = a.past.reverse ++ [r]) (same : free.rounds = run.rounds)
    (outcome : run.outcome = free.outcome) (inner : run.inner = free.inner)
    (overruled : ∀ e, r.event = some e → (t.watch.observe a.watcher e).2 = some .stopEarly →
      e.Converges t.settings) :
    t.TruncatesFrom clock limit k (remaining + 1) (remaining' + 1) a run := by
  rw [TruncatesFrom, ends.iterate_eq]
  exact ⟨[r], same.trans rounds, .of_last overruled rounds outcome inner⟩

/-- An iteration that ends the watched run is the last one of the other too, unless the observer has
asked for it. -/
theorem Ends.truncatesFrom {run : Run R S O} (ends : t.Ends k a run) (inTime : ¬ t.TimesOut k)
    (inTime' : ¬ (t.unobserved clock limit).TimesOut k) :
    t.TruncatesFrom clock limit k (remaining + 1) (remaining' + 1) a run := by
  cases ends with
  | refused answered =>
      exact truncatesFrom_of_last (.refused answered) List.reverse_cons rfl rfl rfl nofun
  | notFinite answered status =>
      exact truncatesFrom_of_last (.notFinite answered status) List.reverse_cons rfl rfl rfl nofun
  | unevaluated answered finite failed =>
      exact truncatesFrom_of_last (.unevaluated answered finite failed) List.reverse_cons rfl rfl rfl
        nofun
  | converged v converges =>
      refine truncatesFrom_of_last (.converged (v.vary .silent clock limit ()) converges)
        List.reverse_cons rfl rfl rfl ?_
      rintro _ ⟨⟩ -
      exact converges
  | stopped v converges stops =>
      obtain ⟨rest, rounds⟩ := (v.vary .silent clock limit ()).rounds_iterate remaining' k
      have rounds : ((t.unobserved clock limit).iterate (remaining' + 1) k (a.watchedBy ())).rounds =
          a.past.reverse ++ v.round k :: rest := by
        rw [List.append_cons, ← List.reverse_cons]
        exact rounds
      exact ⟨v.round k :: rest, rounds,
        .stopped (.here stops) (Nat.succ_pos _) converges List.reverse_cons rfl rfl⟩
  | timedOut _ _ _ timesOut => exact absurd timesOut inTime
  | unweighted v converges stops _ failed =>
      refine truncatesFrom_of_last (.unweighted (v.vary .silent clock limit ()) converges nofun inTime'
        ((advance_variant _ _ _).trans failed)) List.reverse_cons rfl rfl rfl ?_
      rintro _ ⟨⟩ asks
      exact absurd asks stops

/-- After an iteration that goes on, both go on from there. -/
theorem Continues.truncatesFrom {b : Snapshot R S O} {run : Run R S O}
    (continues : t.Continues k a b) (inTime' : ¬ (t.unobserved clock limit).TimesOut k)
    (truncates : t.TruncatesFrom clock limit (k + 1) remaining remaining' b run) :
    t.TruncatesFrom clock limit k (remaining + 1) (remaining' + 1) a run := by
  cases continues with
  | next v converges stops _ advanced =>
      have continues' : (t.unobserved clock limit).Continues k (a.watchedBy ()) _ :=
        .next (v.vary .silent clock limit ()) converges nofun inTime'
          ((advance_variant _ _ _).trans advanced)
      obtain ⟨rest, rounds, truncates⟩ := truncates
      rw [TruncatesFrom, continues'.iterate_eq]
      refine ⟨v.round k :: rest, ?_, .cons rfl stops truncates⟩
      rw [List.append_cons, ← List.reverse_cons]
      exact rounds

/-- From one snapshot on, as long as neither is out of time, a run that is watched is the one that is
not, as far as the observer and the limit let it go. -/
theorem truncatesFrom_iterate (le : remaining ≤ remaining')
    (inTime : ∀ j < k + remaining, ¬ t.TimesOut j)
    (inTime' : ∀ j < k + remaining', ¬ (t.unobserved clock limit).TimesOut j) :
    t.TruncatesFrom clock limit k remaining remaining' a (t.iterate remaining k a) := by
  induction remaining generalizing remaining' k a with
  | zero =>
      obtain ⟨rest, rounds⟩ :=
        (t.unobserved clock limit).rounds_iterate remaining' k (a.watchedBy ())
      refine ⟨rest, rounds, .whole (fun _ => nofun) (List.append_nil _).symm ?_⟩
      rintro rfl
      exact ⟨rfl, rfl⟩
  | succ remaining ih =>
      obtain ⟨n, rfl⟩ : ∃ n, remaining' = n + 1 := ⟨remaining' - 1, by omega⟩
      rcases t.iterate_succ remaining k a with ends | ⟨b, continues, same⟩
      · exact ends.truncatesFrom (inTime k (by omega)) (inTime' k (by omega))
      · rw [same]
        exact continues.truncatesFrom (inTime' k (by omega)) (ih (Nat.le_of_succ_le_succ le)
          (fun j within => inTime j (by omega)) fun j within => inTime' j (by omega))

end Unobserved

/-! ## Whole solves -/

variable (t) in
/-- No iteration that is allowed finds the time up. -/
def InTime : Prop :=
  ∀ k < t.settings.maxIter, ¬ t.TimesOut k

section Whole

variable {clock : Nat → Nat} {limit : Nat}

/-- No solve has more rounds than it is allowed iterations. -/
theorem length_rounds_run (layers : List Layer) (x y : List R) (solver : S) (watcher : O) :
    (t.run layers x y solver watcher).rounds.length ≤ t.settings.maxIter := by
  rcases t.run_starts layers x y solver watcher with ⟨weights, accepted, chosen⟩ | ⟨rounds, -⟩
  · obtain ⟨path, last, follows⟩ :
        ∃ path last, t.Follows (t.first x y weights solver watcher) path last
          (t.run layers x y solver watcher) := t.run_follows accepted chosen
    rcases follows.length_rounds rfl with ⟨limit, length, -⟩ | ⟨within, length, -⟩
    · exact Nat.le_of_eq (length.trans limit)
    · omega
  · rw [rounds]
    exact Nat.zero_le _

/-- A solve is one without an observer and with a limit that is not smaller, as far as its own
observer and its own limit let it go. -/
theorem truncates_run (le : t.settings.maxIter ≤ limit) (inTime : t.InTime)
    (inTime' : (t.unobserved clock limit).InTime) (layers layers' : List Layer) (x y : List R)
    (solver : S) (watcher : O) :
    Truncates t.watch (fun e => e.Converges t.settings) watcher [] 0 t.settings.maxIter limit
      ((t.unobserved clock limit).run layers' x y solver ()).rounds
      ((t.unobserved clock limit).run layers' x y solver ())
      (t.run layers x y solver watcher) := by
  by_cases same : limit = 0 ↔ t.settings.maxIter = 0
  · have opening : (t.unobserved clock limit).opening x y = t.opening x y := opening_variant same x y
    rw [run_eq, run_eq, opening]
    cases t.opening x y with
    | error e => exact .whole nofun List.take_nil.symm fun _ => ⟨rfl, rfl⟩
    | ok weights =>
        have truncates : t.TruncatesFrom clock limit 0 t.settings.maxIter limit
            (t.first x y weights solver watcher)
            (t.iterate t.settings.maxIter 0 (t.first x y weights solver watcher)) :=
          truncatesFrom_iterate le (fun j within => inTime j (by omega))
            fun j within => inTime' j (Nat.zero_add limit ▸ within)
        obtain ⟨rest, rounds, truncates⟩ := truncates
        have rounds : rest = _ := rounds.symm
        rw [rounds] at truncates
        exact truncates
  · have none : t.settings.maxIter = 0 := by omega
    have length := t.length_rounds_run layers x y solver watcher
    rw [none] at length ⊢
    exact .whole (fun _ => nofun) (List.length_eq_zero_iff.1 (Nat.le_zero.1 length)) (by omega)

/-- The run of an observed solve against that of the solve that nobody watches. -/
structure Truncated (t : Task R S O) (watcher : O) (free : Run R S Unit) (run : Run R S O) :
    Prop where
  events : run.events <+: free.events
  /-- The observer has met these events, and nothing else. -/
  watched : run.watcher = (t.watch.drive watcher run.events).1
  /-- The first request for an end is granted, unless the iteration has converged. -/
  stopped : ∀ {k e}, t.watch.FirstStop watcher free.events k e → ¬ e.Converges t.settings →
    run.events = free.events.take (k + 1) ∧
      ∃ innerIterations, run.outcome = .ok (e.solution .stoppedByObserver (k + 1) innerIterations)
  /-- Without a request that counts there is no difference. -/
  same : (∀ {k e}, t.watch.FirstStop watcher free.events k e → e.Converges t.settings) →
    run.outcome = free.outcome ∧ run.rounds = free.rounds ∧ run.inner = free.inner

/-- The whole of a run is truncated at the first request that counts. -/
theorem truncated_of_truncates {n : Nat} {watcher : O} {free : Run R S Unit} {run : Run R S O}
    (truncates : Truncates t.watch (fun e => e.Converges t.settings) watcher [] 0 n n free.rounds free
      run)
    (watched : run.watcher = (t.watch.drive watcher run.events).1)
    (within : free.rounds.length ≤ n) : t.Truncated watcher free run := by
  cases truncates with
  | @stopped j e inner first _ unconverged rounds events outcome =>
      have cut : run.events = free.events.take (j + 1) := by
        rw [Run.events, rounds]
        exact events
      refine ⟨cut ▸ List.take_prefix _ _, watched, ?_, fun overruled =>
        absurd (overruled first) unconverged⟩
      intro k e' first' _
      obtain ⟨rfl, rfl⟩ := first.unique first'
      exact ⟨cut, inner, by rw [outcome, Nat.zero_add]⟩
  | whole overruled rounds same =>
      have whole : run.rounds = free.rounds := by
        rw [rounds, List.take_of_length_le within]
        rfl
      have events : run.events = free.events := by rw [Run.events, whole]; rfl
      refine ⟨events ▸ List.prefix_rfl, watched, ?_, fun _ =>
        ⟨(same rfl).1, whole, (same rfl).2⟩⟩
      intro k e first unconverged
      have number : k < free.rounds.length :=
        Nat.lt_of_lt_of_le first.lt_length (List.length_filterMap_le _ _)
      exact absurd (overruled first (Nat.lt_of_lt_of_le number within)) unconverged

/-- Observers and limits only cut a solve short.  What an observer meets are the first events of the
solve that nobody watches; its first request ends the solve there, unless that iteration has
converged, and if it makes none then the two do not differ.  A solve with a smaller limit goes
through the first rounds of one with a larger limit. -/
theorem run_truncated (t : Task R S O) {clock clock' : Nat → Nat} {limit : Nat} (inTime : t.InTime)
    (freeInTime : (t.unobserved clock t.settings.maxIter).InTime) (le : t.settings.maxIter ≤ limit)
    (longerInTime : (t.limited clock' limit).InTime) (layers layers' : List Layer) (x y : List R)
    (solver : S) (watcher : O) :
    t.Truncated watcher
        ((t.unobserved clock t.settings.maxIter).run layers' x y solver ())
        (t.run layers x y solver watcher) ∧
      (t.run layers x y solver watcher).rounds =
        ((t.limited clock' limit).run layers' x y solver watcher).rounds.take t.settings.maxIter := by
  constructor
  · exact truncated_of_truncates
      (truncates_run (Nat.le_refl _) inTime freeInTime layers layers' x y solver watcher)
      (watcher_run layers x y solver watcher) (length_rounds_run layers' x y solver ())
  · -- both are compared with the solve that has the larger limit and that nobody watches
    have shorter := truncates_run le inTime longerInTime layers layers' x y solver watcher
    have longer := truncates_run (Nat.le_refl _) longerInTime longerInTime layers' layers' x y solver
      watcher
    exact shorter.take_rounds longer le

end Whole

/-- One constraint that stays violated, and an observer that asks for an end at its second event. -/
def interrupted : Task Float (ReplayState Float) Nat where
  problem := .ofPrimitives ⟨.unbounded 1, ⟨[.between 0.0 0.0 Scalar.zero_le_zero]⟩⟩
    { constr? := some fun x _ => .done [x.headD 0.0] () }
  settings := { OuterSettings.default with initialPenalty := some 1.0, maxIter := 3 }
  inner := Replay.solver [{ x? := some [1.0], report := ⟨.converged, 0.0, 3⟩ }]
  watch := ⟨fun seen _ => (seen + 1, if seen = 1 then some .stopEarly else none)⟩
  clock := quickClock

/-- It has two of the three events that there are otherwise, whatever the limit. -/
theorem interrupted_run_truncated :
    let run := interrupted.run [] [2.0] [0.0] {} 0
    let free := (interrupted.unobserved quickClock 3).run [] [2.0] [0.0] {} ()
    let longer := (interrupted.limited quickClock 5).run [] [2.0] [0.0] {} 0
    (interrupted.Truncated 0 free run ∧ run.rounds = longer.rounds.take 3) ∧
      (run.events.length, free.events.length, longer.events.length) = (2, 3, 2) ∧
      run.outcome.toOption.map Solution.status = some .stoppedByObserver ∧
      free.outcome.toOption.map Solution.status = some .maxIter := by
  intro run free longer
  have inTime : ∀ k < 5, ¬ (interrupted.limited quickClock 5).TimesOut k := by decide +kernel
  exact ⟨interrupted.run_truncated (fun k within => inTime k (Nat.lt_trans within (by decide)))
    (fun k within => inTime k (Nat.lt_trans within (by decide))) (by decide) inTime [] [] _ _ _ _,
    by decide +kernel, by decide +kernel, by decide +kernel⟩

end Task

end AugmentedLagrangian

/- # AugmentedLagrangian.Count.Counter — how often and how long

A `Counter` holds for each operation the number of its calls and the time they took.  Numbers of
calls are 64-bit words.  Times that would be too long for a duration are a breach, and what was
added before it stays added: a call is counted before its time is, and the times of another counter
are added one operation after the other.
-/
import AugmentedLagrangian.Count.Chart
import AugmentedLagrangian.Duration

namespace AugmentedLagrangian

set_option autoImplicit false

/-- Calls and times by operation. -/
structure Counter where
  calls : Chart UInt64
  times : Chart Duration
  deriving DecidableEq

namespace Counter

/-- No calls and no time. -/
def zero : Counter :=
  ⟨.const 0, .const .zero⟩

/-- One more call of the operation. -/
def tick (c : Counter) (op : Operation) : Counter :=
  { c with calls := c.calls.set op (c.calls.get op + 1) }

/-- Adds a time to the operation's. -/
def charge (times : Chart Duration) (op : Operation) (time : Duration) :
    Written (Chart Duration) Unit :=
  match (times.get op).add? time with
  | some sum => .done (times.set op sum) ()
  | none => .failed times .breach

/-- One more call of the operation, which took this long. -/
def record (c : Counter) (op : Operation) (time : Duration) : Written Counter Unit :=
  let c := c.tick op
  (charge c.times op time).on fun times => { c with times }

/-- All calls of all operations. -/
def total (c : Counter) : UInt64 :=
  Operation.all.foldl (fun sum op => sum + c.calls.get op) 0

/-- Adds the listed operations' times, one after the other. -/
def chargeAll (other : Chart Duration) : List Operation → Chart Duration →
    Written (Chart Duration) Unit
  | [], times => .done times ()
  | op :: ops, times =>
    (charge times op (other.get op)).andThen fun times _ => chargeAll other ops times

/-- Adds another counter's times and leaves the numbers of calls alone. -/
def addTimes (c other : Counter) : Written Counter Unit :=
  (chargeAll other.times Operation.all c.times).on fun times => { c with times }

/-- Adds another counter: its calls, then its times. -/
def add (c other : Counter) : Written Counter Unit :=
  addTimes { c with calls := .ofFn fun op => c.calls.get op + other.calls.get op } other

end Counter

end AugmentedLagrangian

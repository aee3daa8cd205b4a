import Cuttlegate.Lib.Steps
import Mathlib.Algebra.Order.Field.Rat
import Mathlib.Tactic.SplitIfs

/-!
# The Stream Loops of Go and Python

How the clients that keep a stream open wait between attempts, and the loop of
Python that does so in a thread of its own.

Go shifts a word of 64 bits and replaces what is out of bounds by the cap. The
jitter it adds is left out.

Python multiplies a float by a power of two that is an exact integer. The
integer has to be converted first, which raises an exception when it is too
large. Floats are taken as rational numbers, which is exact for the powers of
two that can be converted, and for their minimum with the cap.

The loop of Python is suspended while it waits for the backoff and while an
attempt lasts. What an attempt comes to is one event, and so are the end of the
backoff, the start of the thread and the close. The random number for the next
backoff comes with the event that leads to it. Callbacks are assumed not to
raise.

## Main definitions

* `Sdk.Go.backoffBase`: The base of a wait in Go.
* `Sdk.Python.backoffDelay`: A wait in Python.
* `Sdk.Python.Attempt`, `Sdk.Python.attemptConnection`: What an attempt comes
  to, and what the loop is told of it.
* `Sdk.Python.StreamLoop`, `Sdk.Python.StreamLoop.step`: The loop.
-/

namespace Cuttlegate.Sdk

/-! ## Go -/

namespace Go

/-- 100 milliseconds. -/
def backoffInitial : BitVec 64 := 100000000

/-- 30 seconds. -/
def backoffCap : Int := 30000000000

/-- The base of the wait before an attempt, in nanoseconds. A negative shift
    panics. -/
def backoffBase (attempt : BitVec 64) : Option Int :=
  if (attempt - 1).toInt < 0 then none
  else
    let base := (backoffInitial <<< (attempt - 1).toInt.toNat).toInt
    some (if base > backoffCap ∨ base ≤ 0 then backoffCap else base)

end Go

/-! ## Python -/

namespace Python

/-- The least integer that is rounded to more than the largest float. -/
def floatLimit : Nat := 2 ^ 1024 - 2 ^ 970

/-- The float of an integer that is a power of two, unless it is too large. -/
def toFloat (n : Nat) : Option ℚ := if n < floatLimit then some n else none

/-- Exponential backoff with full jitter, `none` where it raises
    `OverflowError`. -/
def backoffDelay (random : ℚ) (attempt : Nat) : Option ℚ := do
  let power ← toFloat (2 ^ attempt)
  some (random * min (1 * power) 30)

/-- What an attempt comes to: a transport error, or a response. Only a stream
    with status 200 is read, and it ends or is broken by a transport error. -/
inductive Attempt where
  | failed
  | responded (status : Nat) (broken : Bool)
  deriving DecidableEq, Repr

/-- Whether the loop is to end, and whether it is told of a connection. -/
def attemptConnection : Attempt → Bool × Bool
  | .failed => (false, false)
  | .responded status broken =>
      if status = 401 ∨ status = 403 then (true, false)
      else if status ≥ 500 then (false, false)
      else if status ≠ 200 then (false, false)
      -- The exception leaves the block before its result is returned.
      else if broken then (false, false)
      else (false, true)

/-- What the loop waits for. -/
inductive Waiting where
  | start
  | backoff (delay : ℚ)
  | attempt
  /-- Nothing, as the loop has ended. -/
  | ended
  /-- Nothing, as an exception has ended the thread. -/
  | raised
  deriving DecidableEq

/-- The variables of the loop, and the event that stops it. -/
structure StreamLoop where
  waits : Waiting := .start
  attempt : Nat := 0
  stopped : Bool := false
  deriving DecidableEq

/-- What happens to the loop. -/
inductive StreamEvent where
  /-- The thread starts. -/
  | start
  /-- The backoff is over. -/
  | timer
  | attempted (outcome : Attempt) (random : ℚ)
  /-- The consumer closes the stream. -/
  | close
  deriving DecidableEq

namespace StreamLoop

/-- The head of the loop. -/
def head (random : ℚ) (s : StreamLoop) : StreamLoop :=
  if s.stopped then { s with waits := .ended }
  else if s.attempt > 0 then
    match backoffDelay random s.attempt with
    | some delay => { s with waits := .backoff delay }
    | none => { s with waits := .raised }
  else { s with waits := .attempt }

/-- One event, provided it can happen now. -/
def step (s : StreamLoop) : StreamEvent → Option StreamLoop
  | .start => if s.waits = .start then some (s.head 0) else none
  | .timer =>
      match s.waits with
      | .backoff _ => some { s with waits := if s.stopped then .ended else .attempt }
      | _ => none
  | .attempted outcome random =>
      if s.waits = .attempt then
        let (terminal, connected) := attemptConnection outcome
        if terminal then some { s with waits := .ended }
        else some (head random { s with attempt := if connected then 0 else s.attempt + 1 })
      else none
  -- The close ends a backoff at once; an attempt goes on until its stream ends.
  | .close =>
      some { s with
        stopped := true
        waits := match s.waits with
          | .backoff _ => .ended
          | w => w }

end StreamLoop

/-- A random number is at least zero and less than one. -/
def StreamEvent.Fair : StreamEvent → Prop
  | .attempted _ random => 0 ≤ random ∧ random < 1
  | _ => True

/-- A step of the loop, as it is observed. -/
structure Turn where
  event : StreamEvent
  after : StreamLoop

/-- The steps of the loop. -/
def Turns (s : StreamLoop) (o : Turn) (t : StreamLoop) : Prop :=
  o.event.Fair ∧ s.step o.event = some t ∧ o.after = t

end Python

end Cuttlegate.Sdk

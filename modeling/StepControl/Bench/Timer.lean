/-
A bench for the step timer alone: ticks come only when they are waited for.
-/
import StepControl.Timer

namespace StepControl

/-- a timer and the time -/
structure TimerBench where
  clock : Instant := 0
  timer : Timer

namespace Timer

/-- wait for a tick from `now` until `limit`, both included; the first part of the answer is the instant it came -/
def waitTick (now limit : Instant) (t : Timer) : Option Instant × Timer :=
  match t.poll now with
  | (.ready, t) => (some now, t)
  | (.pending due, t) => if due ≤ limit then (some due, (t.poll due).2) else (none, t)
  | (_, t) => (none, t)

/-- the instants of at most `fuel` ticks that are waited for one after the other from `now` until `limit` -/
def takeTicks (limit : Instant) : Nat → Instant → Timer → List Instant × Timer
  | 0, _, t => ([], t)
  | fuel + 1, now, t =>
    match t.waitTick now limit with
    | (none, t) => ([], t)
    | (some moment, t) =>
      if moment < limit then
        let later := t.takeTicks limit fuel moment
        (moment :: later.1, later.2)
      else ([moment], t)

/-- the instants of all ticks that are waited for one after the other from `now` until `limit`: those that are due at
`now`, and at most one at every instant after it -/
def ticksUntil (now limit : Instant) (t : Timer) : List Instant × Timer :=
  t.takeTicks limit (t.backlog now + (limit - now) + 1) now

end Timer

namespace TimerBench

/-- lengths are in milliseconds -/
inductive Request where
  | start
  | stop
  | setDelay (millis : UInt64)
  | sleep (length : Nat)
  | tick (length : Nat)
  | count (length : Nat)
  deriving DecidableEq, Repr

inductive Answer where
  | nothing
  | failed (error : Error)
  | ticked (came : Bool)
  | ticks (moments : List Instant)
  deriving DecidableEq, Repr

def request (b : TimerBench) : Request → Answer × TimerBench
  | .start => (.nothing, { b with timer := b.timer.start b.clock })
  | .stop => (.nothing, { b with timer := b.timer.stop })
  | .setDelay millis =>
    match Delay.ofMillis millis with
    | .error e => (.failed e, b)
    | .ok delay => (.nothing, { b with timer := b.timer.setDelay b.clock delay })
  | .sleep length => (.nothing, { b with clock := b.clock + length * nanosPerMilli })
  | .tick length =>
    let limit := b.clock + length * nanosPerMilli
    let waited := b.timer.waitTick b.clock limit
    (.ticked waited.1.isSome, ⟨waited.1.getD limit, waited.2⟩)
  | .count length =>
    let limit := b.clock + length * nanosPerMilli
    let ticks := b.timer.ticksUntil b.clock limit
    (.ticks ticks.1, ⟨limit, ticks.2⟩)

/-- carry out requests one after the other; each answer comes with the bench as it was then -/
def requests (b : TimerBench) : List Request → List (Answer × TimerBench)
  | [] => []
  | r :: rest =>
    let one := b.request r
    one :: one.2.requests rest

end TimerBench

end StepControl

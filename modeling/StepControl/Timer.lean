/-
The step timer: a delay and, while it is armed, a schedule of due times.

Instants are nanoseconds since the clock's origin. A schedule remembers when it was armed; its interval is laid down the
first time the timer is asked for a tick, and its first due time is one delay after the arming, not after the asking.
A tick that is taken at most `tolerance` after its due time is followed by one a period after that due time; a later one by
one a period after the tick itself, so missed ticks are not made up for. Stopping drops the schedule, and with it every
tick it could still have given.

Timers wake in whole milliseconds. A due time is an instant like any other, and the due times after it are reckoned from it to
the nanosecond; but it is waited for until the first whole millisecond that is not before it (`Instant.rounded`). What the
clock has come to in whole milliseconds (`Instant.whole`) decides whether a tick can be taken (`Instant.rounded_le_iff`).

The clock ends. An instant at or after `Instant.limit` cannot be named, and to reckon with one brings whoever asks down: the
first due time, the end of the tolerance after a due time, the next due time after a late tick, and the millisecond that any
due time is rounded up to (`Schedule.interval?`, `Interval.Ends`). Only the next due time after a tick in time is checked: where
it cannot be named the platform puts the next tick off by `Interval.farOff` instead. Here such a due time stays what it is, so
it never comes: the ticks after those thirty years are not modelled. Neither is what timers do from `Instant.counted` on, where
they no longer tell instants apart. Both are left out of what is said of the clock's end elsewhere.
-/
import StepControl.Delay

namespace StepControl

/-- nanoseconds since the origin of the clock -/
abbrev Instant := Nat

namespace Instant

/-- the first instant that the clock cannot name: its seconds are signed 64-bit numbers -/
def limit : Instant := Nat.pow 2 63 * nanosPerSecond

/-- the last millisecond that timers count, in 64 bits of which they keep two numbers for themselves -/
def counted : Instant := (Nat.pow 2 64 - 3) * nanosPerMilli

/-- the last whole millisecond until `now` -/
def whole (now : Instant) : Nat := now / nanosPerMilli * nanosPerMilli

/-- the first whole millisecond from `due` on -/
def rounded (due : Instant) : Nat := (due + (nanosPerMilli - 1)) / nanosPerMilli * nanosPerMilli

variable {now due later : Nat}

theorem whole_le (now : Nat) : whole now ≤ now := Nat.div_mul_le_self now nanosPerMilli

theorem le_rounded (due : Nat) : due ≤ rounded due := by
  simp only [rounded, nanosPerMilli]
  omega

theorem rounded_lt (due : Nat) : rounded due < due + nanosPerMilli := by
  simp only [rounded, nanosPerMilli]
  omega

/-- **A due time has come where the whole milliseconds have come to it.** -/
theorem rounded_le_iff : rounded due ≤ now ↔ due ≤ whole now := by
  simp only [rounded, whole, nanosPerMilli]
  omega

theorem lt_rounded_iff : now < rounded due ↔ whole now < due := by
  rw [← Nat.not_le, ← Nat.not_le, rounded_le_iff]

theorem rounded_mono (h : due ≤ later) : rounded due ≤ rounded later :=
  Nat.mul_le_mul_right _ (Nat.div_le_div_right (Nat.add_le_add_right h _))

theorem whole_of_dvd (h : nanosPerMilli ∣ now) : whole now = now := Nat.div_mul_cancel h

theorem rounded_of_dvd (h : nanosPerMilli ∣ due) : rounded due = due :=
  Nat.le_antisymm (rounded_le_iff.2 (Nat.le_of_eq (whole_of_dvd h).symm)) (le_rounded due)

@[simp] theorem whole_rounded (due : Nat) : whole (rounded due) = rounded due := whole_of_dvd (Nat.dvd_mul_left ..)

end Instant

/-- due times that lie a period apart -/
structure Interval where
  period : Delay
  due : Instant
  deriving DecidableEq

/-- how late a tick may be taken without moving the due times after it: 5 ms -/
def Interval.tolerance : Nat := 5 * nanosPerMilli

/-- the interval after its due tick is taken at `now` -/
def Interval.take (now : Instant) (i : Interval) : Interval :=
  { i with due := if now ≤ i.due + tolerance then i.due + i.period.total else now + i.period.total }

/-- thirty years, for a next tick whose due time the clock cannot name -/
def Interval.farOff : Nat := 86400 * 365 * 30 * nanosPerSecond

/-- the instant for which the timer is set when the due tick is taken at `now` -/
def Interval.setFor (now : Instant) (i : Interval) : Instant :=
  if i.due + tolerance < now ∨ i.due + i.period.total < Instant.limit then (i.take now).due else now + farOff

/-- to take the due tick at `now` the clock would have to name an instant that it cannot name -/
def Interval.Ends (now : Instant) (i : Interval) : Prop :=
  Instant.limit ≤ i.due + tolerance ∨ Instant.limit ≤ (i.setFor now).rounded

instance (now : Instant) (i : Interval) : Decidable (i.Ends now) := inferInstanceAs (Decidable (_ ∨ _))

/-- a running schedule -/
structure Schedule where
  armedAt : Instant
  /-- laid down at the first poll -/
  interval : Option Interval := none
  deriving DecidableEq

/-- the interval of a schedule, laid down now if it was not yet; nothing if its first due time cannot be named -/
def Schedule.interval? (delay : Delay) (s : Schedule) : Option Interval :=
  match s.interval with
  | some i => some i
  | none =>
    if Instant.rounded (s.armedAt + delay.total) < Instant.limit then some ⟨delay, s.armedAt + delay.total⟩ else none

/-- the step timer -/
structure Timer where
  delay : Delay := default
  schedule : Option Schedule := none
  deriving DecidableEq

/-- the answer to a timer asked for a tick -/
inductive Poll where
  /-- the timer is not armed -/
  | off
  /-- not before `due`, which is a whole millisecond -/
  | pending (due : Instant)
  /-- a tick, now -/
  | ready
  /-- a due time lies beyond the clock -/
  | overflow
  deriving DecidableEq

namespace Timer

def isActive (t : Timer) : Bool := t.schedule.isSome

/-- arm the timer at `now`, dropping any schedule it has -/
def start (now : Instant) (t : Timer) : Timer := { t with schedule := some { armedAt := now } }

def stop (t : Timer) : Timer := { t with schedule := none }

/-- change the delay; an armed timer starts anew at `now`, and one that is off stays off -/
def setDelay (now : Instant) (delay : Delay) (t : Timer) : Timer :=
  if t.isActive then { t with delay }.start now else { t with delay }

/-- the next due time of an armed timer -/
def due? (t : Timer) : Option Instant :=
  t.schedule.bind fun s => (s.interval? t.delay).map (·.due)

/-- ask for a tick at `now` -/
def poll (now : Instant) (t : Timer) : Poll × Timer :=
  match t.schedule with
  | none => (.off, t)
  | some s =>
    match s.interval? t.delay with
    | none => (.overflow, t)
    | some i =>
      if i.due ≤ now.whole then
        if i.Ends now then (.overflow, t)
        else (.ready, { t with schedule := some { s with interval := some (i.take now) } })
      else (.pending i.due.rounded, { t with schedule := some { s with interval := some i } })

/-- an upper bound on the ticks that a timer left alone can give at `now` -/
def backlog (now : Instant) (t : Timer) : Nat :=
  match t.due? with
  | none => 0
  | some due => if due ≤ now.whole then (min (now - due) Interval.tolerance) / t.delay.total + 1 else 0

/-- the ways in which a timer answers that is asked for a tick at `now`, and what becomes of it -/
inductive Answered (now : Instant) (t : Timer) : Poll × Timer → Prop where
  | off (off : t.schedule = none) : Answered now t (.off, t)
  | unlaid {s : Schedule} (armed : t.schedule = some s) (unlaid : s.interval? t.delay = none) : Answered now t (.overflow, t)
  | pending {s : Schedule} {i : Interval} (armed : t.schedule = some s) (laid : s.interval? t.delay = some i)
      (early : now.whole < i.due) :
      Answered now t (.pending i.due.rounded, { t with schedule := some { s with interval := some i } })
  | ends {s : Schedule} {i : Interval} (armed : t.schedule = some s) (laid : s.interval? t.delay = some i)
      (due : i.due ≤ now.whole) (ends : i.Ends now) : Answered now t (.overflow, t)
  | ready {s : Schedule} {i : Interval} (armed : t.schedule = some s) (laid : s.interval? t.delay = some i)
      (due : i.due ≤ now.whole) (goes : ¬ i.Ends now) :
      Answered now t (.ready, { t with schedule := some { s with interval := some (i.take now) } })

theorem poll_answered (now : Instant) (t : Timer) : Answered now t (t.poll now) := by
  unfold poll
  cases hs : t.schedule with
  | none => exact .off hs
  | some s =>
    dsimp only
    cases hi : s.interval? t.delay with
    | none => exact .unlaid hs hi
    | some i =>
      dsimp only
      split
      case isTrue hdue =>
        split
        case isTrue hends => exact .ends hs hi hdue hends
        case isFalse hgoes => exact .ready hs hi hdue hgoes
      case isFalse hdue => exact .pending hs hi (Nat.lt_of_not_le hdue)

@[simp] theorem start_delay (now : Instant) (t : Timer) : (t.start now).delay = t.delay := rfl

@[simp] theorem stop_delay (t : Timer) : t.stop.delay = t.delay := rfl

@[simp] theorem start_isActive (now : Instant) (t : Timer) : (t.start now).isActive = true := rfl

@[simp] theorem stop_isActive (t : Timer) : t.stop.isActive = false := rfl

@[simp] theorem setDelay_delay (now : Instant) (d : Delay) (t : Timer) : (t.setDelay now d).delay = d := by
  unfold setDelay; split <;> rfl

@[simp] theorem setDelay_isActive (now : Instant) (d : Delay) (t : Timer) :
    (t.setDelay now d).isActive = t.isActive := by
  unfold setDelay; split <;> simp_all [isActive, start]

end Timer

end StepControl

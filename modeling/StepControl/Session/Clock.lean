/-
A session on a clock that stands still while its task can work.

The task works at the present instant until it parks; then time goes on to the next due time of the step timer, which is waited
for in whole milliseconds. What is due at the limit of a stretch of time has not run when the stretch is over. Stretches are meant to
begin at whole milliseconds: a clock that stands at a fraction of one goes on in whole milliseconds from there, so that the task is
woken at such fractions. That is not modelled.
-/
import StepControl.Session.Basic

namespace StepControl.Session

variable {I L P : Type} [Interpreter I] [Loader L I] [Presenter P]

/-- the next due time of the timer of a task that is not over -/
def due? (s : Session I L P) : Option Instant := if s.isAlive then s.controller.timer.due? else none

/-- when a parked task has something to do again -/
def wake? (s : Session I L P) : Option Instant := s.due?.map Instant.rounded

/-- let the task run from `now` on until `stop` holds or `limit` is reached, over at most `fuel` instants; the first part
of the answer is the instant then -/
def runInstants (stop : Session I L P → Bool) (limit : Instant) : Nat → Instant → Session I L P →
    Instant × Session I L P
  | 0, now, s => (now, s)
  | fuel + 1, now, s =>
    let s := s.settle now
    if stop s then (now, s)
    else
      match s.wake? with
      | some due => if due < limit then runInstants stop limit fuel due s else (limit, s)
      | none => (limit, s)

/-- let the task run from `now` on until `stop` holds or `limit` is reached. A task that parks is woken at a later instant
only, so there are no more instants to run at than lie before the limit -/
def runUntil (stop : Session I L P → Bool) (now limit : Instant) (s : Session I L P) : Instant × Session I L P :=
  s.runInstants stop limit (limit - now + 1) now

/-- let time pass from `now` to `limit` -/
def sleep (now limit : Instant) (s : Session I L P) : Session I L P :=
  (s.runUntil (fun _ => false) now limit).2

/-- the end of a wait -/
inductive Waited where
  | reached
  | timedOut
  | closed
  deriving DecidableEq, Repr

/-- wait from `now` until `target` is the published phase, at longest until `limit`. A phase that is published already is
reached at once, whatever became of the task; a dead task publishes nothing any more -/
def waitFor (target : Phase) (now limit : Instant) (s : Session I L P) : Waited × Instant × Session I L P :=
  let look (s : Session I L P) : Session I L P := { s with seen := s.watch.version }
  if s.watch.phase = target then (.reached, now, look s)
  else if s.isAlive = false then (.closed, now, look s)
  else
    let ran := s.runUntil (fun s => s.watch.phase = target || !s.isAlive) now limit
    let answer :=
      if ran.2.watch.phase = target then .reached
      else if ran.2.isAlive then .timedOut
      else .closed
    (answer, ran.1, look ran.2)

end StepControl.Session

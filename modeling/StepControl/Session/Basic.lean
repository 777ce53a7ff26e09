/-
A session: a task that owns a controller and serves intents and ticks one at a time.

Intents come in through an inbox of bounded length; senders that find no room wait in line. The task takes turns. In each
turn it does the first of these that applies: end if it is cancelled, serve the oldest intent in the inbox, end if every
handle is gone, take a tick if one is due. When none applies it parks, and the senders that wait fill the inbox again.
After every intent and every tick the controller's phase is published, and the sender of an intent gets its reply.

When the controller breaks down, the task is dead: what was published stays, what was queued is never served, and its
senders learn that the session is closed.
-/
import StepControl.Controller.Operation
import StepControl.Session.Watch

namespace StepControl

/-- an intent on its way to the task; senders know theirs by the ticket -/
structure Command where
  ticket : Nat
  intent : Intent
  deriving DecidableEq, Repr

/-- how the task of a session fares -/
inductive Status where
  | alive
  /-- ended in good order -/
  | finished
  /-- broke down -/
  | crashed
  deriving DecidableEq, Repr

/-- a session of a controller, with the clients' side of it -/
structure Session (I L P : Type) where
  controller : Controller I L P
  /-- how many commands the inbox holds -/
  capacity : Nat
  status : Status := .alive
  inbox : List Command := []
  /-- commands of senders that wait for room in the inbox, first in line first -/
  waiting : List Command := []
  /-- the number of tickets given out -/
  tickets : Nat := 0
  /-- replies sent, oldest first -/
  replies : List (Nat × Except Error Unit) := []
  watch : Watch
  /-- the version of the watch that the handle has seen -/
  seen : Nat := 0
  cancelled : Bool := false
  /-- every handle is gone -/
  abandoned : Bool := false
  /-- what happened in the task, oldest first -/
  record : List (Timed (Entry I)) := []

namespace Session

variable {I L P : Type}

/-- the greatest inbox that can be made -/
def maxCapacity : Nat := Nat.pow 2 61 - 1

/-- hand a controller to a task; nothing if the inbox that it asks for cannot be made -/
def spawn? (c : Controller I L P) : Option (Session I L P) :=
  let capacity := max c.config.channelSize.toNat 1
  if capacity ≤ maxCapacity then some { controller := c, capacity, watch := { phase := c.phase } } else none

def isAlive (s : Session I L P) : Bool := s.status = .alive

/-- write down what happened at `now` -/
def write (now : Instant) (entries : List (Entry I)) (s : Session I L P) : Session I L P :=
  { s with record := s.record ++ entries.map (Timed.mk now) }

/-- publish the controller's phase -/
def publish (s : Session I L P) : Session I L P :=
  { s with watch := s.watch.publish s.controller.phase }

/-- the task is no more; what it did not serve is dropped -/
def close (status : Status) (s : Session I L P) : Session I L P :=
  { s with status, inbox := [], waiting := [] }

/-- end in good order -/
def finish (now : Instant) (s : Session I L P) : Session I L P :=
  (s.write now [.noted (.taskFinished s.controller.phase)]).close .finished

/-- send an intent; the answer is the ticket to ask for the reply with. A dead task takes nothing in -/
def post (intent : Intent) (s : Session I L P) : Nat × Session I L P :=
  (s.tickets,
    { s with
      tickets := s.tickets + 1
      waiting := if s.isAlive then s.waiting ++ [⟨s.tickets, intent⟩] else s.waiting })

/-- senders that wait put their commands into the inbox as far as there is room -/
def fillInbox (s : Session I L P) : Session I L P :=
  let room := s.capacity - s.inbox.length
  { s with inbox := s.inbox ++ s.waiting.take room, waiting := s.waiting.drop room }

/-- the reply to a ticket: what the controller answered, or that the session is closed where no answer will come. Nothing
while the task may still serve it -/
def reply? (s : Session I L P) (ticket : Nat) : Option (Except Error Unit) :=
  match s.replies.lookup ticket with
  | some r => some r
  | none => if s.isAlive then none else some (.error .sessionClosed)

/-- whether anything was published since a reader saw version `seen`; nothing where the task is over -/
def changed? (s : Session I L P) (seen : Nat) : Option Bool :=
  if s.isAlive then some (s.watch.changedSince seen) else none

variable [Interpreter I] [Loader L I] [Presenter P]

/-- apply one command: dispatch it, publish the phase, send the reply -/
def serve (now : Instant) (command : Command) (s : Session I L P) : Session I L P :=
  let turn := s.controller.dispatch now command.intent
  let s := { s with controller := turn.state }.write now turn.journal
  match turn.value with
  | none => s.close .crashed
  | some result =>
    let s := match result with
      | .error e => s.write now [.noted (.intentFailed command.intent e)]
      | .ok _ => s
    let s := s.publish
    { s with replies := s.replies ++ [(command.ticket, result)] }

/-- apply one tick and publish the phase; the timer has already moved on -/
def serveTick (now : Instant) (timer : Timer) (s : Session I L P) : Session I L P :=
  let turn := ({ s.controller with timer }).tick now
  let s := { s with controller := turn.state }.write now turn.journal
  match turn.value with
  | none => s.close .crashed
  | some _ => s.publish

/-- one turn of the task at `now`, and whether it was not the last for the time being -/
def turn (now : Instant) (s : Session I L P) : Bool × Session I L P :=
  if s.status ≠ .alive then (false, s)
  else if s.cancelled then (false, s.finish now)
  else
    match s.inbox with
    | command :: rest => (true, { s with inbox := rest }.serve now command)
    | [] =>
      if s.abandoned then (false, s.finish now)
      else
        match s.controller.timer.poll now with
        | (.ready, timer) => (true, s.serveTick now timer)
        | (.overflow, _) => (false, s.close .crashed)
        | (_, timer) => (false, { s with controller := { s.controller with timer } })

/-- take turns until the task parks or ends, at most `fuel` of them -/
def turns (now : Instant) : Nat → Session I L P → Session I L P
  | 0, s => s
  | fuel + 1, s =>
    match s.turn now with
    | (true, s) => turns now fuel s
    | (false, s) => s

/-- take turns until the task parks or ends: there are no more turns than commands in the inbox, ticks that the timer can
still give at `now`, and the turn that parks -/
def work (now : Instant) (s : Session I L P) : Session I L P :=
  s.turns now (s.inbox.length + s.controller.timer.backlog now + 1)

/-- let senders and task alternate until nobody can go on, at most `fuel` times -/
def rounds (now : Instant) : Nat → Session I L P → Session I L P
  | 0, s => s
  | fuel + 1, s =>
    let s := s.fillInbox.work now
    if s.waiting = [] then s else rounds now fuel s

/-- let the task run at `now` until nobody can go on: every round lets at least one sender in, so one round more than
there are senders in line is enough -/
def settle (now : Instant) (s : Session I L P) : Session I L P :=
  s.rounds now (s.waiting.length + 1)

/-- cancel the task, let it end, and take the controller back, unless it broke down -/
def shutdown (now : Instant) (s : Session I L P) : Except Error (Controller I L P) × Session I L P :=
  let s := { s with cancelled := true }.settle now
  (if s.status = .crashed then .error .sessionLost else .ok s.controller, s)

/-- let go of the handle, which ends the task once the inbox is empty -/
def abandon (now : Instant) (s : Session I L P) : Session I L P :=
  { s with abandoned := true }.settle now

end Session

end StepControl

/-
The presentation side: what the controller announces, and the places where announcements go.

A presenter takes one notice at a time and answers nothing, so it cannot influence the controller. Each notice is one of six
calls; a channel turns it into an event of its own (`Notice.event`) and keeps that for a front end that fetches it later, until
its receiving end is gone. No two notices give the same event (`PresenterEvent.notice_event`).
-/
import StepControl.Phase
import StepControl.Interpreter

namespace StepControl

/-- one announcement to the presentation side -/
inductive Notice where
  | phaseChanged (phase : Phase)
  | output (byte : UInt8)
  | instructionMoved (index : UInt64)
  | inputRequested (cell : Cell)
  /-- a program that does not parse, or a fault of the program -/
  | error (message : String)
  /-- a fresh session: clear the displays -/
  | reset
  deriving DecidableEq, Repr

/-- what a front end fetches from a channel -/
inductive PresenterEvent where
  | stateChanged (phase : Phase)
  | output (byte : UInt8)
  | instructionPointerMoved (index : UInt64)
  | inputRequested (cell : Cell)
  | error (message : String)
  | reset
  deriving DecidableEq, Repr

/-- what is sent for a notice -/
def Notice.event : Notice → PresenterEvent
  | .phaseChanged phase => .stateChanged phase
  | .output byte => .output byte
  | .instructionMoved index => .instructionPointerMoved index
  | .inputRequested cell => .inputRequested cell
  | .error message => .error message
  | .reset => .reset

/-- the notice that an event was sent for -/
def PresenterEvent.notice : PresenterEvent → Notice
  | .stateChanged phase => .phaseChanged phase
  | .output byte => .output byte
  | .instructionPointerMoved index => .instructionMoved index
  | .inputRequested cell => .inputRequested cell
  | .error message => .error message
  | .reset => .reset

@[simp] theorem PresenterEvent.notice_event (n : Notice) : n.event.notice = n := by cases n <;> rfl

/-- takes announcements -/
class Presenter (P : Type) where
  accept : P → Notice → P

/-- nobody looks -/
instance : Presenter Unit where
  accept _ _ := ()

/-- an unbounded queue of events; what is sent after the receiving end is gone is dropped -/
structure Channel where
  queue : List PresenterEvent := []
  isOpen : Bool := true
  deriving DecidableEq, Repr

namespace Channel

def send (c : Channel) (e : PresenterEvent) : Channel :=
  if c.isOpen then { c with queue := c.queue ++ [e] } else c

/-- fetch all that has arrived -/
def drain (c : Channel) : List PresenterEvent × Channel := (c.queue, { c with queue := [] })

/-- the receiving end goes away, and what was not fetched with it -/
def close (_ : Channel) : Channel := { isOpen := false }

instance : Presenter Channel where
  accept c n := c.send n.event

end Channel

end StepControl

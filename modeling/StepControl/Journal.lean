/-
What an execution leaves behind, entry by entry: programs loaded, calls made on interpreters, notices shown, log records.

A log record is kept as what happened (`Note`); its level, its message and the text of its fields are read off it.
-/
import StepControl.Presenter
import StepControl.Timer

namespace StepControl

/-- how much a log record matters -/
inductive Level where
  | trace
  | debug
  | info
  | warn
  | error
  deriving DecidableEq, Repr

/-- a thing worth a log record; sessions are named by their number, the first being 1 -/
inductive Note where
  | dispatching (intent : Intent) (phase : Phase)
  | ignored (intent : Intent) (phase : Phase)
  | programRejected (message : String) (phase : Phase)
  | sessionStarted (session : Nat) (delay : Delay)
  | sessionStopped (session : Option Nat)
  | phaseChanged (session : Option Nat) (source target : Phase)
  | completed (session : Option Nat)
  | programFault (session : Option Nat) (fault : Fault)
  | internalFault (session : Option Nat) (fault : Fault)
  | inputRejected (error : Error)
  | requestTooLate (cell : Cell)
  | requestReplaced (previous cell : Cell)
  | delayChanged (delay : Delay) (restarted : Bool)
  | delayRejected (error : Error)
  | tickDropped (phase : Phase)
  | intentFailed (intent : Intent) (error : Error)
  | taskFinished (phase : Phase)
  deriving DecidableEq

namespace Note

def level : Note → Level
  | .dispatching .. | .tickDropped .. => .trace
  | .ignored .. | .programRejected .. | .phaseChanged .. | .delayChanged .. | .intentFailed .. | .taskFinished .. =>
    .debug
  | .sessionStarted .. | .sessionStopped .. | .completed .. | .programFault .. => .info
  | .inputRejected .. | .requestTooLate .. | .requestReplaced .. | .delayRejected .. => .warn
  | .internalFault .. => .error

def message : Note → String
  | .dispatching .. => "Dispatching"
  | .ignored .. => "Ignoring intent"
  | .programRejected .. => "Program rejected"
  | .sessionStarted .. => "Session started"
  | .sessionStopped .. => "Session stopped"
  | .phaseChanged .. => "State transition"
  | .completed .. => "Program completed"
  | .programFault .. => "Program fault"
  | .internalFault .. => "Internal interpreter fault"
  | .inputRejected .. => "Input rejected"
  | .requestTooLate .. => "Input already requested during this step, ignoring"
  | .requestReplaced .. => "Input request replaced an outstanding one"
  | .delayChanged .. => "Step delay changed"
  | .delayRejected .. => "Step delay rejected"
  | .tickDropped .. => "Dropping tick"
  | .intentFailed .. => "Intent failed"
  | .taskFinished .. => "Session task finished"

/-- a session as a log record names it -/
def sessionName (n : Nat) : String := "s" ++ toString n

/-- a session that may not have come yet -/
def sessionName? : Option Nat → String
  | none => "None"
  | some n => "Some(" ++ sessionName n ++ ")"

/-- the named fields of a record -/
def fields : Note → List (String × String)
  | .dispatching intent phase | .ignored intent phase => [("intent", intent.label), ("state", phase.label)]
  | .programRejected message phase => [("error", message), ("state", phase.label)]
  | .sessionStarted session delay => [("session", sessionName session), ("delay", delay.display)]
  | .sessionStopped session | .completed session => [("session", sessionName? session)]
  | .phaseChanged session source target =>
    [("session", sessionName? session), ("from", source.label), ("to", target.label)]
  | .programFault session fault => [("session", sessionName? session), ("fault", fault.display)]
  | .internalFault session fault => [("session", sessionName? session), ("error", fault.display)]
  | .inputRejected error | .delayRejected error => [("error", error.message)]
  | .requestTooLate cell => [("cell", cell.display)]
  | .requestReplaced previous cell => [("previous", previous.display), ("cell", cell.display)]
  | .delayChanged delay restarted =>
    [("delay", delay.display), ("restarted", if restarted then "true" else "false")]
  | .tickDropped phase | .taskFinished phase => [("state", phase.label)]
  | .intentFailed intent error => [("intent", intent.label), ("error", error.message)]

end Note

/-- a call on an interpreter with what it answered; no answer means that the call broke down -/
inductive Call where
  | check (answer : Option Check)
  | next (optimize : Bool) (hooks : List Hook) (answer : Option Verdict)
  | put (cell : Cell) (text : String) (answer : Option Verdict)
  | reset (done : Bool)
  deriving DecidableEq, Repr

/-- one thing that happened; interpreters are named by the number of the loader call that built them, the first being 1 -/
inductive Entry (I : Type) where
  | loaded (serial : Nat) (text : String)
  /-- a call on an interpreter that was in state `before` -/
  | called (serial : Nat) (before : I) (call : Call)
  | shown (notice : Notice)
  | noted (note : Note)

namespace Entry

variable {I : Type}

/-- the call of an entry, with the number of the interpreter -/
def call? : Entry I → Option (Nat × Call)
  | .called serial _ call => some (serial, call)
  | _ => none

/-- the notice of an entry -/
def notice? : Entry I → Option Notice
  | .shown notice => some notice
  | _ => none

/-- the log record of an entry -/
def note? : Entry I → Option Note
  | .noted note => some note
  | _ => none

end Entry

/-- a thing and when it happened -/
structure Timed (α : Type) where
  moment : Instant
  what : α

end StepControl

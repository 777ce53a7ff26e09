/-
Phases of a stepped execution and the controls that a front end offers in each of them.

A controller is in exactly one phase at a time. It starts in `idle`. `running`, `steppingOnce`, `paused` and
`awaitingInput` belong to a live session; `stopped` and `faulted` end the session that reached them.
-/

namespace StepControl

/-- where an execution currently stands -/
inductive Phase where
  /-- no session yet, or a faulted one was put back -/
  | idle
  /-- the step timer drives the interpreter -/
  | running
  /-- the single step of a first-step start is being executed -/
  | steppingOnce
  /-- a session is alive and the timer is off -/
  | paused
  /-- the interpreter asked for input and stepping waits for it -/
  | awaitingInput
  /-- the session ended, on request or because the program completed -/
  | stopped
  /-- the session ended on a fault -/
  | faulted
  deriving DecidableEq, Repr, Inhabited

/-- the controls a front end may enable; `editor` means that the program text may be edited -/
structure Controls where
  run : Bool := false
  firstStep : Bool := false
  step : Bool := false
  pause : Bool := false
  resume : Bool := false
  stop : Bool := false
  input : Bool := false
  editor : Bool := false
  deriving DecidableEq, Repr

namespace Phase

/-- the session that reached this phase is over -/
def isTerminal : Phase → Bool
  | .stopped | .faulted => true
  | _ => false

/-- a session is started and not yet over -/
def hasSession : Phase → Bool
  | .running | .steppingOnce | .paused | .awaitingInput => true
  | _ => false

/-- the controls to offer in a phase -/
def controls : Phase → Controls
  | .idle | .stopped => { run := true, firstStep := true, editor := true }
  | .running => { pause := true, stop := true }
  | .steppingOnce | .paused => { step := true, resume := true, stop := true }
  | .awaitingInput => { input := true, stop := true }
  | .faulted => { run := true, firstStep := true, stop := true, editor := true }

/-- a short stable name, for log records and captions -/
def label : Phase → String
  | .idle => "idle"
  | .running => "running"
  | .steppingOnce => "stepping-once"
  | .paused => "paused"
  | .awaitingInput => "awaiting-input"
  | .stopped => "stopped"
  | .faulted => "faulted"

end Phase

end StepControl

/-
The ways a request can fail, and the wording of each.
-/
import StepControl.Phase
import StepControl.Intent

namespace StepControl

/-- why a request was not carried out -/
inductive Error where
  /-- the program text does not parse -/
  | badProgram (message : String)
  /-- the request has no place in the present phase -/
  | notAllowed (intent : Intent) (phase : Phase)
  /-- input was supplied and no cell waits for it -/
  | noPendingInput
  /-- the text names no positive number of milliseconds -/
  | invalidDelay (text : String)
  /-- the task of the session no longer takes requests -/
  | sessionClosed
  /-- the task of the session broke down, and its controller with it -/
  | sessionLost
  deriving DecidableEq, Repr

/-- the wording of an error, for users and log records -/
def Error.message : Error → String
  | .badProgram message => "Syntax error: " ++ message
  | .notAllowed intent phase => "Intent '" ++ intent.label ++ "' is not allowed while " ++ phase.label
  | .noPendingInput => "No input request is outstanding"
  | .invalidDelay text => "Step delay must be a positive number of milliseconds, got '" ++ text ++ "'"
  | .sessionClosed => "The session has been shut down"
  | .sessionLost => "Session task join error"

end StepControl

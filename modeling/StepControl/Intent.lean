/-
What a user asks of the execution, as plain values: they can be applied to a controller directly or sent to the
task that owns it.
-/

namespace StepControl

/-- a user request -/
inductive Intent where
  /-- replace the program text that the next start loads -/
  | load (text : String)
  | run
  | firstStep
  | step
  | pause
  | resume
  | stop
  | supplyInput (text : String)
  /-- a new step delay, in milliseconds -/
  | setDelay (millis : UInt64)
  | setOptimize (on : Bool)
  deriving DecidableEq, Repr

/-- a short stable name, for log records and captions -/
def Intent.label : Intent → String
  | .load _ => "load"
  | .run => "run"
  | .firstStep => "first-step"
  | .step => "step"
  | .pause => "pause"
  | .resume => "continue"
  | .stop => "stop"
  | .supplyInput _ => "supply-input"
  | .setDelay _ => "set-delay"
  | .setOptimize _ => "set-optimize"

end StepControl

/-
One step of the live interpreter, reported to the presenter, and the ends a session can come to by itself.

The output and the moves of the instruction pointer of a step are announced in order before anything that follows from the
step's ending, also when the step halts. A step that halts loses its request for input.
-/
import StepControl.Controller.Basic

namespace StepControl.Controller

variable {I L P : Type} [Interpreter I] [Presenter P]

/-- show a fault to the user, at most once per session -/
def showFault (message : String) : Drive I L P Unit := do
  let c ← Action.read
  if c.errorShown then pure ()
  else
    Action.update fun c => { c with errorShown := true }
    announce (.error message)

/-- end the session for the reason that the interpreter gave -/
def halt (why : Halt) : Drive I L P Outcome := do
  disarm
  let c ← Action.read
  match why with
  | .completion =>
    note [.completed c.session]
    goTo .stopped
    pure .completed
  | .fault fault =>
    match fault with
    | .program message =>
      note [.programFault c.session fault]
      showFault message
    | .internal _ => note [.internalFault c.session fault]
    goTo .faulted
    pure (.faulted fault)

/-- do as the gate says -/
def follow (now : Instant) : Signal → Drive I L P Unit
  | .blocked => do
    Action.update fun c => { c with timer := c.timer.stop }
    goTo .awaitingInput
  | .resume => do
    arm now
    goTo .running

/-- suspend the stepping until `cell` has its input -/
def awaitInput (now : Instant) (cell : Cell) : Drive I L P Unit := do
  let c ← Action.read
  let asked := c.gate.request cell
  note (c.gate.displaced?.toList.map fun previous => .requestReplaced previous cell)
  Action.update fun c => { c with gate := asked.1 }
  follow now asked.2
  announce (.inputRequested cell)

/-- what the presenter is told of a hook call while the step is read; requests for input are told later -/
def progress? : Hook → Option Notice
  | .output byte => some (.output byte)
  | .instruction index => some (.instructionMoved index)
  | .requestInput _ => none

/-- what a step came to that ended well -/
def settleStep (now : Instant) (events : StepBuffer) : Drive I L P Outcome :=
  match events.request? with
  | some cell => do
    awaitInput now cell
    pure (.inputRequested cell)
  | none => pure (if events.output = [] then .advanced else .outputProduced events.output)

/-- let the live interpreter take one step -/
def executeStep (now : Instant) : Drive I L P Outcome := do
  let c ← Action.read
  match c.live with
  | none => halt (.fault (.internal "step requested without a loaded interpreter"))
  | some inst =>
    let stepped := Interpreter.next inst.machine c.optimize
    let filled := c.buffer.fill stepped.hooks
    called inst (.next c.optimize stepped.hooks (stepped.ending.map (·.1)))
    note (filled.2.map .requestTooLate)
    Action.update fun c => { c with buffer := filled.1 }
    let ending ← Action.demand stepped.ending
    Action.update fun c => { c with buffer := {}, live := some { inst with machine := ending.2 } }
    announceAll (filled.1.events.filterMap progress?)
    match ending.1 with
    | .halt why => halt why
    | .proceed => settleStep now filled.1

end StepControl.Controller

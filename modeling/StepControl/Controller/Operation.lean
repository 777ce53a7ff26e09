/-
The operations of a controller.

`run` and `firstStep` start a session from the loaded program; `pause`, `resume`, `step` and `stop` drive a live one;
`supplyInput` answers a request for input; `setDelay` changes the delay at any time; `tick` is what the step timer calls.
A request that has no place in the present phase is logged and ignored, except `supplyInput`, which fails. A start first
checks the program, so a program that does not parse leaves the session that is live untouched.
-/
import StepControl.Controller.Stepping

namespace StepControl

/-- a public operation of a controller -/
inductive Operation where
  | load (text : String)
  | setOptimize (on : Bool)
  | run
  | firstStep
  | step
  | pause
  | resume
  | stop
  | supplyInput (text : String)
  | setDelay (millis : UInt64)
  | tick
  | dispatch (intent : Intent)
  deriving DecidableEq, Repr

/-- what an operation answers -/
inductive Reply where
  | nothing
  | result (result : Except Error Unit)
  /-- of a start that takes its first step at once -/
  | started (result : Except Error Outcome)
  /-- of a step or a tick; missing when it was ignored -/
  | stepped (outcome : Option Outcome)

namespace Controller

variable {I L P : Type} [Interpreter I] [Loader L I] [Presenter P]

/-- replace the program text that the next start loads -/
def load (text : String) : Drive I L P Unit :=
  Action.update fun c => { c with program := text }

/-- set the flag for all steps to come -/
def setOptimize (on : Bool) : Drive I L P Unit :=
  Action.update fun c => { c with optimize := on }

/-- build an interpreter from the program text and have it check the text -/
def prepare : Drive I L P (Except Error (Instance I)) := do
  let c ← Action.read
  let built := Loader.load c.loader c.program
  let inst : Instance I := ⟨c.loads + 1, built.1⟩
  Action.update fun c => { c with loader := built.2, loads := c.loads + 1 }
  Action.write [.loaded inst.serial c.program]
  let answer := Interpreter.check inst.machine
  called inst (.check answer)
  match ← Action.demand answer with
  | .accepted => pure (.ok inst)
  | .rejected message =>
    note [.programRejected message c.phase]
    announce (.error message)
    pure (.error (.badProgram message))

/-- end the session, with tape and pointers back at their origin; after a fault this only puts the controller back to
`idle` -/
def stop : Drive I L P Unit := do
  let c ← Action.read
  match c.phase with
  | .idle | .stopped => ignore .stop
  | phase =>
    disarm
    match c.live with
    | none => pure ()
    | some inst =>
      Action.update fun c => { c with live := none }
      let _ ← resetInstance inst
    note [.sessionStopped c.session]
    goTo (if phase = .faulted then .idle else .stopped)

/-- make a session of an interpreter that has checked its program, in place of the one that is live -/
def begin (inst : Instance I) : Drive I L P Unit := do
  let c ← Action.read
  if c.phase.hasSession then stop
  disarm
  let fresh ← resetInstance inst
  let c ← Action.read
  let session := c.session.getD 0 + 1
  note [.sessionStarted session c.delay]
  Action.update fun c => { c with session := some session, live := some fresh, errorShown := false }
  announce .reset

/-- start a session and let the timer drive it -/
def run (now : Instant) : Drive I L P (Except Error Unit) := do
  match ← prepare with
  | .error e => pure (.error e)
  | .ok inst =>
    begin inst
    arm now
    goTo .running
    pure (.ok ())

/-- start a session, take exactly one step and pause -/
def firstStep (now : Instant) : Drive I L P (Except Error Outcome) := do
  match ← prepare with
  | .error e => pure (.error e)
  | .ok inst =>
    begin inst
    goTo .steppingOnce
    let outcome ← executeStep now
    let c ← Action.read
    if c.phase = .steppingOnce then goTo .paused
    pure (.ok outcome)

/-- take one step of a paused session -/
def step (now : Instant) : Drive I L P (Option Outcome) := do
  let c ← Action.read
  if c.phase = .paused then some <$> executeStep now
  else
    ignore .step
    pure none

/-- take the timer from a running session -/
def pause : Drive I L P Unit := do
  let c ← Action.read
  match c.phase with
  | .running =>
    Action.update fun c => { c with timer := c.timer.stop }
    goTo .paused
  | .paused => pure ()
  | _ => ignore .pause

/-- let the timer drive a paused session again -/
def resume (now : Instant) : Drive I L P Unit := do
  let c ← Action.read
  if c.phase = .paused then
    arm now
    goTo .running
  else ignore .resume

/-- hand input to the interpreter that waits for it, and run on -/
def supplyInput (now : Instant) (text : String) : Drive I L P (Except Error Unit) := do
  let c ← Action.read
  if c.phase ≠ .awaitingInput then
    let error := Error.notAllowed (.supplyInput text) c.phase
    note [.inputRejected error]
    pure (.error error)
  else
    match c.live with
    | none => pure (.error .noPendingInput)
    | some inst =>
      let supplied := c.gate.supply text inst.machine
      Action.update fun c => { c with gate := supplied.2 }
      match supplied.1 with
      | .error e => pure (.error e)
      | .ok delivery =>
        called inst (.put delivery.cell text (delivery.answer.map (·.1)))
        let answer ← Action.demand delivery.answer
        Action.update fun c => { c with live := some { inst with machine := answer.2 } }
        match answer.1 with
        | .proceed => follow now .resume
        | .halt why =>
          let _ ← halt why
        pure (.ok ())

/-- change the delay; zero is refused and the delay kept -/
def setDelay (now : Instant) (millis : UInt64) : Drive I L P (Except Error Unit) := do
  match Delay.ofMillis millis with
  | .error e =>
    note [.delayRejected e]
    pure (.error e)
  | .ok delay =>
    Action.update fun c => { c with timer := c.timer.setDelay now delay }
    let c ← Action.read
    note [.delayChanged delay c.timer.isActive]
    pure (.ok ())

/-- the timer's call: take one step of a running session -/
def tick (now : Instant) : Drive I L P (Option Outcome) := do
  let c ← Action.read
  if c.phase = .running then some <$> executeStep now
  else
    note [.tickDropped c.phase]
    pure none

/-- apply an intent by the operation it names -/
def dispatch (now : Instant) (intent : Intent) : Drive I L P (Except Error Unit) := do
  let c ← Action.read
  note [.dispatching intent c.phase]
  match intent with
  | .load text => do load text; pure (.ok ())
  | .run => run now
  | .firstStep => do
    match ← firstStep now with
    | .error e => pure (.error e)
    | .ok _ => pure (.ok ())
  | .step => do let _ ← step now; pure (.ok ())
  | .pause => do pause; pure (.ok ())
  | .resume => do resume now; pure (.ok ())
  | .stop => do stop; pure (.ok ())
  | .supplyInput text => supplyInput now text
  | .setDelay millis => setDelay now millis
  | .setOptimize on => do setOptimize on; pure (.ok ())

/-- carry out an operation at `now` -/
def perform (now : Instant) : Operation → Drive I L P Reply
  | .load text => do load text; pure .nothing
  | .setOptimize on => do setOptimize on; pure .nothing
  | .run => .result <$> run now
  | .firstStep => .started <$> firstStep now
  | .step => .stepped <$> step now
  | .pause => do pause; pure .nothing
  | .resume => do resume now; pure .nothing
  | .stop => do stop; pure .nothing
  | .supplyInput text => .result <$> supplyInput now text
  | .setDelay millis => .result <$> setDelay now millis
  | .tick => .stepped <$> tick now
  | .dispatch intent => .result <$> dispatch now intent

end Controller

end StepControl

/-
The controller's state, and the small actions that all its operations are made of.

A controller owns a loader, at most one live interpreter, a presenter, the step timer and the input gate. Everything it
does to the interpreter, shows to the presenter or puts in the log is written to the journal of the action that did it, in
the order it happened.
-/
import StepControl.Action
import StepControl.Config
import StepControl.Gate
import StepControl.Journal
import StepControl.StepBuffer

namespace StepControl

/-- an interpreter and the number of the loader call that built it -/
structure Instance (I : Type) where
  serial : Nat
  machine : I

/-- the state of a controller of interpreters `I`, built by a loader `L`, announcing to a presenter `P` -/
structure Controller (I L P : Type) where
  /-- the settings it was made with -/
  config : Config
  phase : Phase := .idle
  loader : L
  /-- how often the loader was called -/
  loads : Nat := 0
  /-- the interpreter of the session, kept after the session completed or faulted -/
  live : Option (Instance I) := none
  presenter : P
  /-- the text that the next start loads -/
  program : String := ""
  /-- the flag that the next step gets -/
  optimize : Bool
  buffer : StepBuffer := {}
  timer : Timer
  gate : Gate := {}
  /-- the number of the latest session -/
  session : Option Nat := none
  /-- a fault of this session was shown -/
  errorShown : Bool := false

/-- an action of a controller -/
abbrev Drive (I L P α : Type) : Type := Action (Controller I L P) (Entry I) α

namespace Controller

variable {I L P : Type}

/-- a controller that has done nothing yet -/
def ofConfig (config : Config) (loader : L) (presenter : P) : Controller I L P where
  config := config
  loader := loader
  presenter := presenter
  optimize := config.optimize
  timer := { delay := config.stepDelay }

/-- the present pause between two timed steps -/
def delay (c : Controller I L P) : Delay := c.timer.delay

/-- the cell that waits for input -/
def pending (c : Controller I L P) : Option Cell := c.gate.pending

/-- put records in the log -/
def note (notes : List Note) : Drive I L P Unit := Action.write (notes.map .noted)

/-- announce to the presenter -/
def announce [Presenter P] (notice : Notice) : Drive I L P Unit := fun c =>
  ⟨some (), { c with presenter := Presenter.accept c.presenter notice }, [.shown notice]⟩

/-- announce in order -/
def announceAll [Presenter P] : List Notice → Drive I L P Unit
  | [] => pure ()
  | notice :: rest => do
    announce notice
    announceAll rest

/-- write down a call on an interpreter -/
def called (inst : Instance I) (call : Call) : Drive I L P Unit :=
  Action.write [.called inst.serial inst.machine call]

/-- log that an intent has no place in the present phase -/
def ignore (intent : Intent) : Drive I L P Unit := do
  let c ← Action.read
  note [.ignored intent c.phase]

/-- go to a phase and announce it; nothing happens where the controller is in that phase already -/
def goTo [Presenter P] (target : Phase) : Drive I L P Unit := do
  let c ← Action.read
  if c.phase = target then pure ()
  else
    note [.phaseChanged c.session c.phase target]
    Action.update fun c => { c with phase := target }
    announce (.phaseChanged target)

/-- switch the timer off and give up a request for input -/
def disarm : Drive I L P Unit :=
  Action.update fun c => { c with timer := c.timer.stop, gate := c.gate.clear }

/-- arm the timer at `now` -/
def arm (now : Instant) : Drive I L P Unit :=
  Action.update fun c => { c with timer := c.timer.start now }

@[simp] theorem note_apply (notes : List Note) (c : Controller I L P) :
    (note notes : Drive I L P Unit) c = ⟨some (), c, notes.map .noted⟩ := rfl

@[simp] theorem called_apply (inst : Instance I) (call : Call) (c : Controller I L P) :
    (called inst call : Drive I L P Unit) c = ⟨some (), c, [.called inst.serial inst.machine call]⟩ := rfl

@[simp] theorem ignore_apply (intent : Intent) (c : Controller I L P) :
    (ignore intent : Drive I L P Unit) c = ⟨some (), c, [.noted (.ignored intent c.phase)]⟩ := rfl

@[simp] theorem disarm_apply (c : Controller I L P) :
    (disarm : Drive I L P Unit) c = ⟨some (), { c with timer := c.timer.stop, gate := {} }, []⟩ := rfl

@[simp] theorem arm_apply (now : Instant) (c : Controller I L P) :
    (arm now : Drive I L P Unit) c = ⟨some (), { c with timer := c.timer.start now }, []⟩ := rfl

@[simp] theorem announce_apply [Presenter P] (notice : Notice) (c : Controller I L P) :
    (announce notice : Drive I L P Unit) c =
      ⟨some (), { c with presenter := Presenter.accept c.presenter notice }, [.shown notice]⟩ := rfl

@[simp] theorem announceAll_apply [Presenter P] (notices : List Notice) (c : Controller I L P) :
    (announceAll notices : Drive I L P Unit) c =
      ⟨some (), { c with presenter := notices.foldl Presenter.accept c.presenter }, notices.map .shown⟩ := by
  induction notices generalizing c with
  | nil => rfl
  | cons notice rest ih => simp [announceAll, Action.bind_apply, ih]

theorem goTo_apply [Presenter P] (target : Phase) (c : Controller I L P) :
    (goTo target : Drive I L P Unit) c =
      if c.phase = target then ⟨some (), c, []⟩
      else
        ⟨some (), { c with phase := target, presenter := Presenter.accept c.presenter (.phaseChanged target) },
          [.noted (.phaseChanged c.session c.phase target), .shown (.phaseChanged target)]⟩ := by
  simp [goTo, Action.bind_apply, Action.ite_apply]

/-- bring an interpreter back to its origin -/
def resetInstance [Interpreter I] (inst : Instance I) : Drive I L P (Instance I) := do
  let answer := Interpreter.reset inst.machine
  called inst (.reset answer.isSome)
  let machine ← Action.demand answer
  pure { inst with machine }

end Controller

end StepControl

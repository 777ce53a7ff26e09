/-
What the controller knows of an interpreter: it can be asked to check its program, to take one step, to accept input and
to go back to its origin.

An interpreter is a type of states with these four calls. A call may break down (`none`); what a broken interpreter would
do next is never asked. During a step the interpreter reports output, moves of the instruction pointer and requests for
input through hooks; the controller reads them when the step is over.
-/

namespace StepControl

/-- a tape cell, as an interpreter names it when it asks for input -/
structure Cell where
  index : UInt64
  deriving DecidableEq, Repr

/-- a cell as shown to users -/
def Cell.display (c : Cell) : String := "#" ++ toString c.index.toNat

/-- what an interpreter reports during a step -/
inductive Hook where
  | output (byte : UInt8)
  | instruction (index : UInt64)
  | requestInput (cell : Cell)
  deriving DecidableEq, Repr

/-- a failure of a running program -/
inductive Fault where
  /-- the program is at fault; its message is for the user, word for word -/
  | program (message : String)
  /-- anything else; it is logged and never shown -/
  | internal (message : String)
  deriving DecidableEq, Repr

namespace Fault

def isUserFacing : Fault → Bool
  | .program _ => true
  | .internal _ => false

def message : Fault → String
  | .program m | .internal m => m

/-- a fault as log records have it -/
def display : Fault → String
  | .program m => m
  | .internal m => "Internal interpreter fault: " ++ m

end Fault

/-- why a session ends by itself -/
inductive Halt where
  /-- the program ran to its end, which is no error -/
  | completion
  | fault (fault : Fault)
  deriving DecidableEq, Repr

/-- how a step or an input ended -/
inductive Verdict where
  | proceed
  | halt (why : Halt)
  deriving DecidableEq, Repr

/-- whether a program parses -/
inductive Check where
  | accepted
  | rejected (message : String)
  deriving DecidableEq, Repr

/-- one step of an interpreter in a state of type `I`: the hooks it called, in order, and its ending, which is missing when
the step broke down -/
structure Stepped (I : Type) where
  hooks : List Hook
  ending : Option (Verdict × I)

/-- the calls of an interpreter -/
class Interpreter (I : Type) where
  /-- does the program parse -/
  check : I → Option Check
  /-- one unit of work, told whether to optimize -/
  next : I → Bool → Stepped I
  /-- input for a cell -/
  put : I → Cell → String → Option (Verdict × I)
  /-- tape and pointers back to their origin -/
  reset : I → Option I

/-- builds interpreters from program texts; `L` is what the loader remembers from one call to the next -/
class Loader (L : Type) (I : outParam Type) where
  load : L → String → I × L

/-- an interpreter of which no call ever breaks down -/
class SoundInterpreter (I : Type) [Interpreter I] : Prop where
  check_isSome : ∀ i : I, (Interpreter.check i).isSome = true
  next_isSome : ∀ (i : I) (optimize : Bool), (Interpreter.next i optimize).ending.isSome = true
  put_isSome : ∀ (i : I) (cell : Cell) (text : String), (Interpreter.put i cell text).isSome = true
  reset_isSome : ∀ i : I, (Interpreter.reset i).isSome = true

/-- what one step came to -/
inductive Outcome where
  | advanced
  /-- the bytes the step emitted, in order, at least one -/
  | outputProduced (bytes : List UInt8)
  | inputRequested (cell : Cell)
  | completed
  | faulted (fault : Fault)
  deriving DecidableEq, Repr

/-- the step ended the session -/
def Outcome.isTerminal : Outcome → Bool
  | .completed | .faulted _ => true
  | _ => false

end StepControl

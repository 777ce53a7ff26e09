/-
The input gate: the one request for input that a session can have outstanding.

While a request is outstanding stepping is suspended. Supplying a text closes the gate whatever the interpreter makes of
the text.
-/
import StepControl.Interpreter
import StepControl.Error

namespace StepControl

/-- what the gate tells the stepping -/
inductive Signal where
  /-- wait for input -/
  | blocked
  /-- input has arrived, go on -/
  | resume
  deriving DecidableEq, Repr

/-- the cell that waits for input, if one does -/
structure Gate where
  pending : Option Cell := none
  deriving DecidableEq, Repr

/-- a text handed to the waiting cell and what the interpreter answered -/
structure Delivery (I : Type) where
  cell : Cell
  answer : Option (Verdict × I)

namespace Gate

/-- ask for input; a request that was still outstanding is given up -/
def request (_ : Gate) (cell : Cell) : Gate × Signal := (⟨some cell⟩, .blocked)

/-- the request that a new one would displace -/
def displaced? (g : Gate) : Option Cell := g.pending

/-- hand a text to the waiting cell; the gate is closed afterwards in any case -/
def supply {I : Type} [Interpreter I] (g : Gate) (text : String) (i : I) : Except Error (Delivery I) × Gate :=
  match g.pending with
  | none => (.error .noPendingInput, {})
  | some cell => (.ok ⟨cell, Interpreter.put i cell text⟩, {})

def clear (_ : Gate) : Gate := {}

end Gate

end StepControl

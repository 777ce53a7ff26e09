/-
The hook calls of one step, collected while the interpreter works.

Of the requests for input only the first of a step counts; later ones leave a warning in the log and nothing else.
-/
import StepControl.Interpreter

namespace StepControl

/-- what the running step has reported so far -/
structure StepBuffer where
  events : List Hook := []
  requested : Bool := false
  deriving DecidableEq, Repr

namespace StepBuffer

/-- take one hook call; the second part is the cell of a request that came too late -/
def report (b : StepBuffer) : Hook → StepBuffer × Option Cell
  | .requestInput cell =>
    if b.requested then (b, some cell) else (⟨b.events ++ [.requestInput cell], true⟩, none)
  | hook => ({ b with events := b.events ++ [hook] }, none)

/-- take hook calls in order; the second part has the cells of all requests that came too late -/
def fill (b : StepBuffer) : List Hook → StepBuffer × List Cell
  | [] => (b, [])
  | hook :: rest =>
    let one := b.report hook
    let all := one.1.fill rest
    (all.1, one.2.toList ++ all.2)

/-- how many events the buffer has after each of the hook calls -/
def sizes (b : StepBuffer) : List Hook → List Nat
  | [] => []
  | hook :: rest =>
    let one := (b.report hook).1
    one.events.length :: one.sizes rest

/-- the bytes written, in order -/
def output (b : StepBuffer) : List UInt8 :=
  b.events.filterMap fun
    | .output byte => some byte
    | _ => none

/-- the cell that input is asked for -/
def request? (b : StepBuffer) : Option Cell :=
  (b.events.filterMap fun
    | .requestInput cell => some cell
    | _ => none).getLast?

end StepBuffer

end StepControl

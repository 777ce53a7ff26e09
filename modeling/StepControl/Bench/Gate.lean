/-
A bench for the input gate alone, with one scripted interpreter behind it.
-/
import StepControl.Gate
import StepControl.Journal
import StepControl.Script

namespace StepControl

/-- a gate, the interpreter that gets the input, and what happened since the last request -/
structure GateBench where
  gate : Gate := {}
  player : Player
  journal : List (Entry Player) := []

namespace GateBench

inductive Request where
  | ask (cell : Cell)
  | supply (text : String)
  | clear
  deriving DecidableEq, Repr

inductive Answer where
  | nothing
  | signal (signal : Signal)
  /-- the text was handed over and the program halted -/
  | halted (why : Halt)
  | failed (error : Error)
  /-- the interpreter broke down -/
  | broken
  deriving DecidableEq, Repr

/-- carry out a request; the journal is what it brought -/
def request (b : GateBench) : Request → Answer × GateBench
  | .ask cell =>
    let asked := b.gate.request cell
    (.signal asked.2,
      { b with
        gate := asked.1
        journal := b.gate.displaced?.toList.map fun previous => .noted (.requestReplaced previous cell) })
  | .supply text =>
    let supplied := b.gate.supply text b.player
    match supplied.1 with
    | .error e => (.failed e, { b with gate := supplied.2, journal := [] })
    | .ok delivery =>
      let b := { b with
        gate := supplied.2
        journal := [.called 1 b.player (.put delivery.cell text (delivery.answer.map (·.1)))] }
      match delivery.answer with
      | none => (.broken, b)
      | some (.proceed, player) => (.signal .resume, { b with player })
      | some (.halt why, player) => (.halted why, { b with player })
  | .clear => (.nothing, { b with gate := b.gate.clear, journal := [] })

/-- carry out requests one after the other; each answer comes with the bench as it was then -/
def requests (b : GateBench) : List Request → List (Answer × GateBench)
  | [] => []
  | r :: rest =>
    let one := b.request r
    one :: one.2.requests rest

end GateBench

end StepControl

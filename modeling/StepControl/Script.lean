/-
A scripted interpreter: it does at each step what a script tells it to do.

A script is chosen by the program text. It has a list of steps, each with its hook calls and its ending, and a list of
verdicts on the inputs it is given. A step or an input beyond the end of its list goes well and does nothing; a looping
script starts over instead.
-/
import StepControl.Interpreter

namespace StepControl

/-- one step of a script; without an ending it breaks down after its hook calls -/
structure Script.Line where
  hooks : List Hook := []
  ending : Option Verdict := some .proceed
  deriving DecidableEq, Repr

/-- what a scripted interpreter does -/
structure Script where
  /-- the program text it belongs to -/
  text : String := ""
  /-- the message of the check, if the program does not parse -/
  rejection : Option String := none
  lines : List Script.Line := []
  loops : Bool := false
  /-- the verdicts on inputs; a missing verdict breaks down -/
  puts : List (Option Verdict) := []
  deriving DecidableEq, Repr

/-- a script being played -/
structure Player where
  script : Script
  /-- steps taken since the last reset -/
  cursor : Nat := 0
  /-- inputs taken since the last reset -/
  inputs : Nat := 0
  /-- inputs that went well since the last reset, oldest first -/
  written : List (Cell × String) := []
  deriving DecidableEq, Repr

namespace Player

/-- the line that the next step plays -/
def line (p : Player) : Script.Line :=
  let position := if p.script.loops then p.cursor % p.script.lines.length else p.cursor
  p.script.lines[position]?.getD {}

def next (p : Player) : Stepped Player where
  hooks := p.line.hooks
  ending := p.line.ending.map fun verdict => (verdict, { p with cursor := p.cursor + 1 })

def put (p : Player) (cell : Cell) (text : String) : Option (Verdict × Player) :=
  (p.script.puts[p.inputs]?.getD (some .proceed)).map fun verdict =>
    (verdict,
      { p with
        inputs := p.inputs + 1
        written := if verdict = .proceed then p.written ++ [(cell, text)] else p.written })

instance : Interpreter Player where
  check p := some (match p.script.rejection with
    | none => .accepted
    | some message => .rejected message)
  next p _ := p.next
  put := put
  reset p := some { script := p.script }

end Player

/-- scripts to choose from by their program text -/
structure Repertoire where
  scripts : List Script
  deriving DecidableEq, Repr

namespace Repertoire

/-- the first script of a text, or one that does nothing -/
def find (r : Repertoire) (text : String) : Script :=
  (r.scripts.find? (·.text == text)).getD { text }

instance : Loader Repertoire Player where
  load r text := ({ script := r.find text }, r)

end Repertoire

end StepControl

/-
JSON forms of the values that front ends store and send.

A variant without payload is its name, and reads also as an object with that one key and the value null; a variant with a
payload is an object with that one key. Records are objects; they read also from a list of their fields in order. Keys
that a record does not know are ignored, except in a delay. A delay is written in normal form, and reading one carries full
seconds out of the nanoseconds.
-/
import StepControl.Config
import StepControl.Interpreter
import StepControl.Json.Basic

namespace StepControl

/-- the name of a variant without payload -/
def Json.unitVariant? (j : Json) : Option String :=
  match j.variant? with
  | some (name, none) => some name
  | some (name, some payload) => if payload.isNull then some name else none
  | none => none

/-- the name and the payload of a variant that has one -/
def Json.payloadVariant? (j : Json) : Option (String × Json) :=
  match j.variant? with
  | some (name, some payload) => some (name, payload)
  | _ => none

namespace Phase

/-- the name of a phase in JSON -/
def code : Phase → String
  | .idle => "Idle"
  | .running => "Running"
  | .steppingOnce => "SteppingOnce"
  | .paused => "Paused"
  | .awaitingInput => "AwaitingInput"
  | .stopped => "Stopped"
  | .faulted => "Faulted"

/-- all phases -/
def all : List Phase := [.idle, .running, .steppingOnce, .paused, .awaitingInput, .stopped, .faulted]

def toJson (p : Phase) : Json := .text p.code

def ofJson? (j : Json) : Option Phase :=
  j.unitVariant?.bind fun name => all.find? (·.code == name)

end Phase

namespace Intent

def toJson : Intent → Json
  | .load text => .object [("Load", .text text)]
  | .run => .text "Run"
  | .firstStep => .text "FirstStep"
  | .step => .text "Step"
  | .pause => .text "Pause"
  | .resume => .text "Continue"
  | .stop => .text "Stop"
  | .supplyInput text => .object [("SupplyInput", .text text)]
  | .setDelay millis => .object [("SetDelay", .nat millis.toNat)]
  | .setOptimize on => .object [("SetOptimize", .bool on)]

/-- the intent of a name alone -/
def ofUnit? : String → Option Intent
  | "Run" => some .run
  | "FirstStep" => some .firstStep
  | "Step" => some .step
  | "Pause" => some .pause
  | "Continue" => some .resume
  | "Stop" => some .stop
  | _ => none

/-- the intent of a name with a payload -/
def ofPayload? : String → Json → Option Intent
  | "Load", j => j.text?.map .load
  | "SupplyInput", j => j.text?.map .supplyInput
  | "SetDelay", j => j.word64?.map .setDelay
  | "SetOptimize", j => j.bool?.map .setOptimize
  | _, _ => none

def ofJson? (j : Json) : Option Intent :=
  match j.unitVariant?.bind ofUnit? with
  | some intent => some intent
  | none => j.payloadVariant?.bind fun variant => ofPayload? variant.1 variant.2

end Intent

namespace Controls

/-- the names of the fields in JSON, in order -/
def keys : List String := ["run", "first_step", "step", "pause", "resume", "stop", "input", "editor"]

/-- the values of the fields, in order -/
def flags (c : Controls) : List Bool :=
  [c.run, c.firstStep, c.step, c.pause, c.resume, c.stop, c.input, c.editor]

def toJson (c : Controls) : Json := .object (keys.zip (c.flags.map .bool))

def ofFlags? : List Bool → Option Controls
  | [run, firstStep, step, pause, resume, stop, input, editor] =>
    some { run, firstStep, step, pause, resume, stop, input, editor }
  | _ => none

def ofJson? (j : Json) : Option Controls := do
  let values ← j.record? keys false
  let flags ← values.mapM Json.bool?
  ofFlags? flags

end Controls

namespace Delay

def toJson (d : Delay) : Json :=
  .object [("secs", .nat d.span.secs.toNat), ("nanos", .nat d.span.nanos.toNat)]

def ofJson? (j : Json) : Option Delay :=
  match j.record? ["secs", "nanos"] true with
  | some [secs, nanos] => do
    let span ← Span.carried? (← secs.word64?) (← nanos.word32?)
    (ofSpan span).toOption
  | _ => none

end Delay

namespace Config

def toJson (c : Config) : Json :=
  .object [("step_delay", c.stepDelay.toJson), ("optimize", .bool c.optimize),
    ("channel_size", .nat c.channelSize.toNat)]

def ofJson? (j : Json) : Option Config :=
  match j.record? ["step_delay", "optimize", "channel_size"] false with
  | some [stepDelay, optimize, channelSize] => do
    pure {
      stepDelay := ← Delay.ofJson? stepDelay
      optimize := ← optimize.bool?
      channelSize := ← channelSize.word64? }
  | _ => none

end Config

namespace Cell

def toJson (c : Cell) : Json := .nat c.index.toNat

def ofJson? (j : Json) : Option Cell := j.word64?.map .mk

end Cell

end StepControl

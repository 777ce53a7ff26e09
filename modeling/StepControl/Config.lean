/-
Settings of a controller and of the session that runs it.
-/
import StepControl.Delay

namespace StepControl

/-- initial settings -/
structure Config where
  /-- pause between two timed steps -/
  stepDelay : Delay := default
  /-- flag handed to the interpreter at every step -/
  optimize : Bool := false
  /-- how many requests may queue up in a session; zero counts as one -/
  channelSize : UInt64 := 32
  deriving DecidableEq

namespace Config

instance : Inhabited Config := ⟨{}⟩

/-- set the queue length, where zero is raised to one -/
def withChannelSize (c : Config) (size : UInt64) : Config := { c with channelSize := max size 1 }

end Config

/-- changes to a configuration, each of them optional -/
structure Config.Changes where
  delayMillis : Option UInt64 := none
  delay : Option Span := none
  optimize : Option Bool := none
  channelSize : Option UInt64 := none
  /-- a queue length taken as it is, zero included -/
  rawChannelSize : Option UInt64 := none

/-- the configuration after the changes, made in the order of their fields; the first zero delay is refused -/
def Config.apply (c : Config) (new : Config.Changes) : Except Error Config := do
  let c ← match new.delayMillis with
    | none => pure c
    | some m => do pure { c with stepDelay := ← Delay.ofMillis m }
  let c ← match new.delay with
    | none => pure c
    | some d => do pure { c with stepDelay := ← Delay.ofSpan d }
  let c := { c with optimize := new.optimize.getD c.optimize }
  let c := match new.channelSize with
    | none => c
    | some n => c.withChannelSize n
  pure { c with channelSize := new.rawChannelSize.getD c.channelSize }

end StepControl

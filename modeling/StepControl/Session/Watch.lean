/-
A published phase that many readers follow.

Only a change is published, and each change has its own version. A reader remembers the version it last looked at, so it
can tell whether anything was published since, also when the phase has meanwhile changed back.
-/
import StepControl.Phase

namespace StepControl

/-- the phase published last, and how many changes led to it -/
structure Watch where
  phase : Phase
  version : Nat := 0
  deriving DecidableEq, Repr

namespace Watch

/-- publish a phase, if it differs from the last -/
def publish (w : Watch) (phase : Phase) : Watch :=
  if phase = w.phase then w else ⟨phase, w.version + 1⟩

/-- something was published since a reader saw version `seen` -/
def changedSince (w : Watch) (seen : Nat) : Bool := w.version != seen

@[simp] theorem publish_phase (w : Watch) (phase : Phase) : (w.publish phase).phase = phase := by
  unfold publish; split <;> simp_all

theorem publish_version (w : Watch) (phase : Phase) :
    (w.publish phase).version = if phase = w.phase then w.version else w.version + 1 := by
  unfold publish; split <;> rfl

end Watch

end StepControl

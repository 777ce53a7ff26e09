/-
The order in which one interpreter is called.

`Stage` is how far an interpreter has come: just built, past its check, ready for a step, asked for a cell, at fault, over.
Its transitions (`Stage.next?`) say which calls it may get there; any other call is out of place. A word of calls is read
from left to right (`Stage.read`), and where it can be read from `fresh` the calls were in order.

The words that can be read are then known by their shape (`WellCalled`):
- a check comes first, and nothing comes after a rejection;
- a reset comes before the first step and one more at the end, and there is no other;
- an input comes where the step or input before it asked for it, and with the cell that was asked for;
- nothing follows a halt but the final reset after a fault.

Results:
- `Stage.read_fresh`: what is read up to a settled stage is a check, a reset, and steps and inputs; or that and a final
  reset.
- `Stage.read_eq_asked`: where a word leads to a stage that asks for a cell, its last call asked for it.
- `Stage.wellCalled_of_read`: so words that can be read are well called.

The stages are for proofs: no controller keeps one. Which stage its interpreter has reached can be read off its phase, its
pending cell and whether it has an interpreter at all (`Controller.stage` in `CallProtocol`).
-/
import Mathlib.Data.List.Basic
import StepControl.Proofs.StepBuffer

namespace StepControl

namespace Call

def verdict? : Call → Option Verdict
  | .next _ _ answer | .put _ _ answer => answer
  | _ => none

/-- a step or an input -/
def isWork : Call → Bool
  | .next .. | .put .. => true
  | _ => false

end Call

/-- how far an interpreter has come -/
inductive Stage where
  /-- just built -/
  | fresh
  /-- its program parses -/
  | passed
  /-- it can take a step -/
  | ready
  /-- its last step asked for input -/
  | asked (cell : Cell)
  /-- its program is at fault -/
  | faulted
  /-- it gets no call any more -/
  | over
  deriving DecidableEq

namespace Stage

/-- the stage after a step or an input that a session goes on from, or does not -/
def after (cell? : Option Cell) : Verdict → Stage
  | .proceed => match cell? with
    | none => .ready
    | some cell => .asked cell
  | .halt .completion => .over
  | .halt (.fault _) => .faulted

/-- the stage after a call, if there can be such a call -/
def next? : Stage → Call → Option Stage
  | .fresh, .check (some .accepted) => some .passed
  | .fresh, .check (some (.rejected _)) => some .over
  | .passed, .reset true => some .ready
  | .ready, .next _ hooks (some verdict) => some (after (StepBuffer.firstRequest hooks) verdict)
  | .asked cell, .put cell' _ (some verdict) => if cell = cell' then some (after none verdict) else none
  | .ready, .reset true => some .over
  | .asked _, .reset true => some .over
  | .faulted, .reset true => some .over
  | _, _ => none

/-- the stage after calls, if there can be such calls -/
def read : Stage → List Call → Option Stage
  | s, [] => some s
  | s, call :: rest => (s.next? call).bind (·.read rest)

variable {s t : Stage} {call : Call} {v w : List Call}

theorem read_cons : s.read (call :: w) = some t ↔ ∃ r, s.next? call = some r ∧ r.read w = some t := by
  simp [read, Option.bind_eq_some_iff]

theorem read_append : s.read (v ++ w) = some t ↔ ∃ r, s.read v = some r ∧ r.read w = some t := by
  induction v generalizing s with
  | nil => simp [read]
  | cons call v ih =>
    simp only [List.cons_append, read_cons, ih]
    constructor
    · rintro ⟨r, hr, u, hv, hw⟩
      exact ⟨u, ⟨r, hr, hv⟩, hw⟩
    · rintro ⟨u, ⟨r, hr, hv⟩, hw⟩
      exact ⟨r, hr, u, hv, hw⟩

/-- one call more -/
theorem read_concat {r : Stage} (h : s.read w = some r) (hn : r.next? call = some t) :
    s.read (w ++ [call]) = some t :=
  read_append.2 ⟨r, h, read_cons.2 ⟨t, hn, rfl⟩⟩

theorem eq_nil_of_read_over (h : over.read w = some s) : w = [] := by
  cases w with
  | nil => rfl
  | cons call w =>
    obtain ⟨r, hr, -⟩ := read_cons.1 h
    simp [next?] at hr

/-- a faulted program can only be brought back to its origin -/
theorem read_faulted (h : faulted.read w = some s) : w = [] ∨ w = [.reset true] := by
  cases w with
  | nil => exact Or.inl rfl
  | cons call w =>
    obtain ⟨r, hr, hw⟩ := read_cons.1 h
    unfold next? at hr
    split at hr <;> simp_all
    rw [← hr] at hw
    exact eq_nil_of_read_over hw

/-- an interpreter that asked for input gets input for that cell, or the final reset -/
theorem read_asked {cell : Cell} (h : (asked cell).read w = some s) :
    w = [] ∨ w = [.reset true] ∨ ∃ text answer rest, w = .put cell text answer :: rest := by
  cases w with
  | nil => exact Or.inl rfl
  | cons call w =>
    obtain ⟨r, hr, hw⟩ := read_cons.1 h
    unfold next? at hr
    split at hr <;> simp_all
    rw [← hr] at hw
    exact eq_nil_of_read_over hw

/-- only a step that goes on asks for input, and for that of the first cell that it named -/
theorem next?_eq_asked {cell : Cell} (h : s.next? call = some (asked cell)) :
    ∃ optimize hooks, call = .next optimize hooks (some .proceed) ∧ StepBuffer.firstRequest hooks = some cell := by
  unfold next? at h
  split at h
  case h_4 optimize hooks verdict =>
    rcases verdict with _ | _ | fault
    · cases hr : StepBuffer.firstRequest hooks with
      | none => simp [after, hr] at h
      | some cell' =>
        obtain rfl : cell' = cell := by simpa [after, hr] using h
        exact ⟨optimize, hooks, rfl, hr⟩
    · simp [after] at h
    · simp [after] at h
  case h_5 cell' cell'' text verdict =>
    rcases verdict with _ | _ | fault <;> simp [after] at h
  all_goals simp at h

/-- where input is asked for, the last call was the step that asked -/
theorem read_eq_asked {cell : Cell} (h : fresh.read w = some (asked cell)) :
    ∃ earlier optimize hooks, w = earlier ++ [.next optimize hooks (some .proceed)] ∧
      StepBuffer.firstRequest hooks = some cell := by
  rcases List.eq_nil_or_concat' w with rfl | ⟨earlier, call, rfl⟩
  · simp [read] at h
  · obtain ⟨r, -, hcall⟩ := read_append.1 h
    obtain ⟨r', hr', hnil⟩ := read_cons.1 hcall
    obtain rfl : r' = asked cell := by simpa [read] using hnil
    obtain ⟨optimize, hooks, rfl, hcell⟩ := next?_eq_asked hr'
    exact ⟨earlier, optimize, hooks, rfl, hcell⟩

/-- the program parses and its interpreter was brought to its origin -/
def isSettled : Stage → Bool
  | .fresh | .passed => false
  | _ => true

theorem isSettled_after (cell? : Option Cell) (verdict : Verdict) : (after cell? verdict).isSettled = true := by
  rcases verdict with _ | _ | fault <;> cases cell? <;> rfl

/-- a settled interpreter works until it gets its final reset -/
theorem next?_of_isSettled (hs : s.isSettled = true) (h : s.next? call = some t) :
    (call.isWork = true ∧ t.isSettled = true) ∨ (call = .reset true ∧ t = .over) := by
  unfold next? at h
  split at h
  case h_4 optimize hooks verdict =>
    obtain rfl := Option.some.inj h
    exact Or.inl ⟨rfl, isSettled_after _ _⟩
  case h_5 cell cell' text verdict =>
    split at h
    · obtain rfl := Option.some.inj h
      exact Or.inl ⟨rfl, isSettled_after _ _⟩
    · simp at h
  all_goals simp_all [isSettled]

theorem read_of_isSettled (hs : s.isSettled = true) (h : s.read w = some t) :
    ∃ work final, w = work ++ final ∧ (∀ call ∈ work, call.isWork = true) ∧ (final = [] ∨ final = [.reset true]) := by
  induction w generalizing s with
  | nil => exact ⟨[], [], rfl, by simp, Or.inl rfl⟩
  | cons call w ih =>
    obtain ⟨r, hr, hw⟩ := read_cons.1 h
    rcases next?_of_isSettled hs hr with ⟨hwork, hr⟩ | ⟨rfl, rfl⟩
    · obtain ⟨work, final, rfl, hall, hfinal⟩ := ih hr hw
      refine ⟨call :: work, final, rfl, ?_, hfinal⟩
      intro e he
      rcases List.mem_cons.1 he with rfl | he
      · exact hwork
      · exact hall e he
    · obtain rfl := eq_nil_of_read_over hw
      exact ⟨[], [.reset true], rfl, by simp, Or.inr rfl⟩

/-- the first calls of an interpreter -/
theorem read_fresh (h : fresh.read w = some t) (ht : t.isSettled = true) :
    (∃ message, w = [.check (some (.rejected message))]) ∨
      ∃ rest, w = .check (some .accepted) :: .reset true :: rest ∧ ready.read rest = some t := by
  rcases w with _ | ⟨call, w⟩
  · obtain rfl := Option.some.inj h
    exact absurd ht (by decide)
  · obtain ⟨r, hr, hw⟩ := read_cons.1 h
    unfold next? at hr
    split at hr <;> simp_all
    · subst hr
      rcases w with _ | ⟨call, w⟩
      · obtain rfl := Option.some.inj hw
        exact absurd ht (by decide)
      · obtain ⟨r, hr, hw⟩ := read_cons.1 hw
        unfold next? at hr
        split at hr <;> simp_all
    · subst hr
      exact eq_nil_of_read_over hw

end Stage

/-! ## Words of calls -/

/-- the calls of one interpreter, in order, are as they should be -/
structure WellCalled (w : List Call) : Prop where
  shape : (∃ message, w = [.check (some (.rejected message))]) ∨
    ∃ work final, w = .check (some .accepted) :: .reset true :: (work ++ final) ∧
      (∀ call ∈ work, call.isWork = true) ∧ (final = [] ∨ final = [.reset true])
  asked : ∀ before optimize hooks cell rest, w = before ++ .next optimize hooks (some .proceed) :: rest →
    StepBuffer.firstRequest hooks = some cell →
      rest = [] ∨ rest = [.reset true] ∨ ∃ text answer more, rest = .put cell text answer :: more
  put : ∀ before cell text answer rest, w = before ++ .put cell text answer :: rest →
    ∃ earlier optimize hooks, before = earlier ++ [.next optimize hooks (some .proceed)] ∧
      StepBuffer.firstRequest hooks = some cell
  completed : ∀ before call rest, w = before ++ call :: rest → call.verdict? = some (.halt .completion) → rest = []
  faulted : ∀ before call fault rest, w = before ++ call :: rest → call.verdict? = some (.halt (.fault fault)) →
    rest = [] ∨ rest = [.reset true]

namespace Stage

variable {s t : Stage} {call : Call} {w : List Call}

/-- a halt leads to the stage that its reason says -/
theorem next?_of_halt {why : Halt} (hc : call.verdict? = some (.halt why)) (h : s.next? call = some t) :
    t = after none (.halt why) := by
  unfold next? at h
  split at h <;> simp_all [Call.verdict?]
  · rw [← h]
    cases why <;> rfl

theorem wellCalled_of_read (h : fresh.read w = some t) (ht : t.isSettled = true) : WellCalled w where
  shape := by
    rcases read_fresh h ht with hrejected | ⟨rest, rfl, hrest⟩
    · exact Or.inl hrejected
    · obtain ⟨work, final, rfl, hwork, hfinal⟩ := read_of_isSettled rfl hrest
      exact Or.inr ⟨work, final, rfl, hwork, hfinal⟩
  asked before optimize hooks cell rest hw hcell := by
    subst hw
    obtain ⟨r, -, hnext⟩ := read_append.1 h
    obtain ⟨u, hu, hrest⟩ := read_cons.1 hnext
    have hasked : u = asked cell := by
      cases r with
      | ready => simpa [next?, after, hcell] using hu.symm
      | _ => simp [next?] at hu
    exact read_asked (hasked ▸ hrest)
  put before cell text answer rest hw := by
    subst hw
    obtain ⟨r, hbefore, hput⟩ := read_append.1 h
    obtain ⟨u, hu, -⟩ := read_cons.1 hput
    have hasked : r = asked cell := by
      unfold next? at hu
      split at hu <;> simp_all
    exact read_eq_asked (hasked ▸ hbefore)
  completed before call rest hw hc := by
    subst hw
    obtain ⟨r, -, hcall⟩ := read_append.1 h
    obtain ⟨u, hu, hrest⟩ := read_cons.1 hcall
    rw [next?_of_halt hc hu] at hrest
    exact eq_nil_of_read_over hrest
  faulted before call fault rest hw hc := by
    subst hw
    obtain ⟨r, -, hcall⟩ := read_append.1 h
    obtain ⟨u, hu, hrest⟩ := read_cons.1 hcall
    rw [next?_of_halt hc hu] at hrest
    exact read_faulted hrest

end Stage

end StepControl

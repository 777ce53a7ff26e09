/-
What the buffer of a step keeps of the hook calls.

An interpreter calls its hooks while it takes a step: it writes output, moves the instruction pointer, and asks for input.
All hook calls are kept in order, except the requests for input after the first, which are handed back as late.

The buffer is a loop over the calls with a mark that a request came before. What it keeps is said without the loop, by two
functions over the list of calls (`kept`, `late`), and the lemmas are inductions on that list:
- `fill_events`: what is kept is what was there, and then the calls of the step without its late requests.
- `fill_late`: the late requests are the others.
- `fill_progress`: so the output and the moves of the instruction pointer reach the presenter as they were reported.
- `fill_request?`: the cell that a step asks for is the first one it named (`firstRequest`).

Premises: none, for any calls in any order. For the last two the buffer is empty to begin with, which it is between steps
(`Controller.Steady`).
-/
import StepControl.Controller.Stepping

namespace StepControl.StepBuffer

open Controller (progress?)

def cell? : Hook → Option Cell
  | .requestInput cell => some cell
  | _ => none

def firstRequest (hooks : List Hook) : Option Cell := hooks.findSome? cell?

/-- the hook calls without the requests for input that come after another one; `asked` says that one came before -/
def kept (asked : Bool) : List Hook → List Hook
  | [] => []
  | .requestInput cell :: rest => if asked then kept true rest else .requestInput cell :: kept true rest
  | .output byte :: rest => .output byte :: kept asked rest
  | .instruction index :: rest => .instruction index :: kept asked rest

/-- the cells of the requests that come after another one -/
def late (asked : Bool) : List Hook → List Cell
  | [] => []
  | .requestInput cell :: rest => if asked then cell :: late true rest else late true rest
  | .output _ :: rest => late asked rest
  | .instruction _ :: rest => late asked rest

theorem fill_events (b : StepBuffer) (hooks : List Hook) :
    (b.fill hooks).1.events = b.events ++ kept b.requested hooks := by
  induction hooks generalizing b with
  | nil => simp [fill, kept]
  | cons hook rest ih =>
    cases hook with
    | requestInput cell => cases hr : b.requested <;> simp [fill, report, kept, ih, hr]
    | output byte => simp [fill, report, kept, ih]
    | instruction index => simp [fill, report, kept, ih]

theorem fill_late (b : StepBuffer) (hooks : List Hook) : (b.fill hooks).2 = late b.requested hooks := by
  induction hooks generalizing b with
  | nil => rfl
  | cons hook rest ih =>
    cases hook with
    | requestInput cell => cases hr : b.requested <;> simp [fill, report, late, ih, hr]
    | output byte => simp [fill, report, late, ih]
    | instruction index => simp [fill, report, late, ih]

/-- only requests are dropped -/
theorem kept_filterMap {β : Type} {f : Hook → Option β} (hf : ∀ cell, f (.requestInput cell) = none) (asked : Bool)
    (hooks : List Hook) : (kept asked hooks).filterMap f = hooks.filterMap f := by
  induction hooks generalizing asked with
  | nil => rfl
  | cons hook rest ih =>
    cases hook with
    | requestInput cell => cases asked <;> simp [kept, hf, ih]
    | output byte => simp [kept, List.filterMap_cons, ih]
    | instruction index => simp [kept, List.filterMap_cons, ih]

theorem kept_progress (asked : Bool) (hooks : List Hook) :
    (kept asked hooks).filterMap progress? = hooks.filterMap progress? := kept_filterMap (fun _ => rfl) asked hooks

/-- after a request has been kept no other is -/
theorem kept_cells (asked : Bool) (hooks : List Hook) :
    (kept asked hooks).filterMap cell? = if asked then [] else (firstRequest hooks).toList := by
  induction hooks generalizing asked with
  | nil => cases asked <;> rfl
  | cons hook rest ih =>
    cases hook with
    | requestInput cell => cases asked <;> simp [kept, cell?, firstRequest, List.findSome?_cons, ih]
    | output byte => simpa [kept, List.filterMap_cons, List.findSome?_cons, cell?, firstRequest] using ih asked
    | instruction index => simpa [kept, List.filterMap_cons, List.findSome?_cons, cell?, firstRequest] using ih asked

theorem request?_eq (b : StepBuffer) : b.request? = (b.events.filterMap cell?).getLast? := rfl

theorem fill_request? (hooks : List Hook) : (fill {} hooks).1.request? = firstRequest hooks := by
  rw [request?_eq, fill_events, List.nil_append, kept_cells]
  cases firstRequest hooks <;> rfl

theorem fill_progress (hooks : List Hook) :
    (fill {} hooks).1.events.filterMap progress? = hooks.filterMap progress? := by
  rw [fill_events, List.nil_append, kept_progress]

end StepControl.StepBuffer

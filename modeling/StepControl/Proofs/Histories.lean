/-
Histories: what was done with a controller since it was made, as it looks from outside.

A controller is reached (`Controller.Reached`) from a new one by operations that return, and by asking its timer for a tick.
Its history has an entry for each operation (`Applied`): when it was carried out, the phases around it, its reply, and the
step delay afterwards. An operation in which the interpreter breaks down does not return, and nothing is reached by it.

A history is what can be known without looking into the controller, so whatever is said about the past of a controller is
said with it: when its timer was armed (`Deadlines`), which settings were written (`Settings`), which sessions were begun
and ended (`AuditTrail`).

Results:
- `Controller.Reached.steady`: reached controllers are steady, and not in the middle of a first step.
- `Session.Turned.reached` / `Session.Step.reached`: what a turn of a task applies is one more entry.
- `Session.Runs.reached`: so a session only reaches what its controller could have reached on its own. For every run of a
  session that did not break down there is a history of its controller whose operations are the acts of the run.

Premises: none of the interpreter, the loader or the presenter, and none of the instants: a history need not go forward in
time.
-/
import StepControl.Proofs.Serial

namespace StepControl

open StepControl.Action

/-- an operation as it is when it is not dispatched -/
def Operation.plain : Operation → Operation
  | .dispatch intent => intent.operation
  | op => op

@[simp] theorem Intent.plain_operation (intent : Intent) : intent.operation.plain = intent.operation := by
  cases intent <;> rfl

/-- one operation of a history -/
structure Applied where
  moment : Instant
  operation : Operation
  /-- the phase that it found -/
  before : Phase
  reply : Reply
  /-- the phase that it left -/
  after : Phase
  /-- the step delay in force when it was over -/
  delay : Delay

def Applied.asked (e : Applied) : Instant × Operation := (e.moment, e.operation)

def Act.asked : Act → Instant × Operation
  | .dispatch now command => (now, .dispatch command.intent)
  | .tick now => (now, .tick)

namespace Controller

variable {I L P : Type} [Interpreter I] [Loader L I] [Presenter P] {c d : Controller I L P} {past : List Applied}
  {now : Instant} {op : Operation} {reply : Reply}

/-- the entry of an operation on `c` that was replied to and left `d` -/
def applied (now : Instant) (op : Operation) (reply : Reply) (c d : Controller I L P) : Applied :=
  ⟨now, op, c.phase, reply, d.phase, d.delay⟩

/-- `c` is what a new controller came to with the history `past` -/
inductive Reached : List Applied → Controller I L P → Prop where
  | new (config : Config) (loader : L) (presenter : P) : Reached [] (ofConfig config loader presenter)
  | perform {past : List Applied} {c : Controller I L P} {reply : Reply} (front : Reached past c) (now : Instant)
      (op : Operation) (returned : ((perform now op : Drive I L P Reply) c).value = some reply) :
      Reached (past ++ [applied now op reply c ((perform now op : Drive I L P Reply) c).state])
        ((perform now op : Drive I L P Reply) c).state
  | poll {past : List Applied} {c : Controller I L P} (front : Reached past c) (now : Instant) :
      Reached past { c with timer := (c.timer.poll now).2 }

omit [Interpreter I] [Loader L I] [Presenter P] in
/-- asking the timer for a tick does not disturb a controller -/
theorem Steady.poll (h : Steady c) (now : Instant) :
    Steady ({ c with timer := (c.timer.poll now).2 } : Controller I L P) where
  timer := by
    have hsame : (c.timer.poll now).2.isActive = c.timer.isActive := by
      rw [← Timer.unlaid_isActive, Timer.poll_unlaid, Timer.unlaid_isActive]
    rw [hsame]
    exact h.timer
  pending := h.pending
  live := h.live
  idle := h.idle
  buffer := h.buffer
  errorShown := h.errorShown
  session := h.session

/-- **Reached controllers are steady**, and not in the middle of a first step. -/
theorem Reached.steady (h : Reached past c) : Steady c ∧ c.phase ≠ .steppingOnce := by
  induction h with
  | new config loader presenter => exact ⟨steady_ofConfig config loader presenter, by simp [ofConfig]⟩
  | perform front now op returned ih =>
    obtain ⟨hmoves, hq⟩ := perform_yields ih.1 ih.2 op _ returned
    exact ⟨hmoves.steady ih.1, hq⟩
  | poll front now ih => exact ⟨ih.1.poll now, ih.2⟩

end Controller

namespace Session

open Controller (Reached)

variable {I L P : Type} [Interpreter I] [Loader L I] [Presenter P] {c : Controller I L P} {s t u : Session I L P}
  {past : List Applied} {as bs : List Act} {es fs : List Command} {now : Instant}

/-- a task that is over does not do anything in its turn -/
theorem Turned.over (h : Turned now s as t) (hs : s.status ≠ .alive) : as = [] ∧ t = s := by
  cases h with
  | idle status => exact ⟨rfl, rfl⟩
  | finish status reason => exact absurd status hs
  | serve status going inbox => exact absurd status hs
  | tick status going inbox held poll => exact absurd status hs
  | overflow status going inbox held poll => exact absurd status hs
  | park status going inbox held => exact absurd status hs

/-- a task that broke down stays so -/
theorem Step.crashed (h : Step s as es t) (hs : s.status = .crashed) : t.status = .crashed := by
  cases h with
  | turn now =>
    obtain ⟨-, hsame⟩ := (turn_turned now s).over (by rw [hs]; decide)
    rw [hsame]
    exact hs
  | _ => exact hs

/-- a command that the task applies is one operation more, unless the task breaks down over it -/
theorem serve_reached {command : Command} (h : Reached past s.controller)
    (ht : (s.serve now command).status ≠ .crashed) :
    ∃ e, e.asked = (now, .dispatch command.intent) ∧ Reached (past ++ [e]) (s.serve now command).controller := by
  cases hv : (Controller.dispatch now command.intent s.controller).value with
  | none => simp [serve, hv, close] at ht
  | some result =>
    obtain ⟨-, hcontroller, -, -⟩ := serve_spec (s := s) hv
    have hreturned : ((Controller.perform now (.dispatch command.intent) : Drive I L P Reply) s.controller).value =
        some (.result result) := by
      rw [Controller.perform, map_apply, hv]
      rfl
    have hstate : ((Controller.perform now (.dispatch command.intent) : Drive I L P Reply) s.controller).state =
        (s.serve now command).controller := by
      rw [Controller.perform, map_apply, hcontroller]
    have hnext := h.perform now _ hreturned
    rw [hstate] at hnext
    exact ⟨_, rfl, hnext⟩

/-- a tick that the task applies is one operation more, unless the task breaks down over it -/
theorem serveTick_reached {timer : Timer} (h : Reached past ({ s.controller with timer } : Controller I L P))
    (ht : (s.serveTick now timer).status ≠ .crashed) :
    ∃ e, e.asked = (now, .tick) ∧ Reached (past ++ [e]) (s.serveTick now timer).controller := by
  cases hv : (Controller.tick now { s.controller with timer }).value with
  | none => simp [serveTick, hv, close] at ht
  | some outcome =>
    obtain ⟨-, hcontroller, -, -⟩ := serveTick_spec hv
    have hreturned : ((Controller.perform now .tick : Drive I L P Reply) { s.controller with timer }).value =
        some (.stepped outcome) := by
      rw [Controller.perform, map_apply, hv]
      rfl
    have hstate : ((Controller.perform now .tick : Drive I L P Reply) { s.controller with timer }).state =
        (s.serveTick now timer).controller := by
      rw [Controller.perform, map_apply, hcontroller]
    have hnext := h.perform now _ hreturned
    rw [hstate] at hnext
    exact ⟨_, rfl, hnext⟩

/-- what a turn of the task does with the controller -/
theorem Turned.reached (hturn : Turned now s as t) (h : Reached past s.controller) (ht : t.status ≠ .crashed) :
    ∃ since, since.map Applied.asked = as.map Act.asked ∧ Reached (past ++ since) t.controller := by
  have hsame : Reached (past ++ []) s.controller := by rwa [List.append_nil]
  cases hturn with
  | idle status => exact ⟨[], rfl, hsame⟩
  | finish status reason => exact ⟨[], rfl, hsame⟩
  | @serve command rest status going inbox =>
    obtain ⟨e, he, hnext⟩ := serve_reached (s := { s with inbox := rest }) h ht
    exact ⟨[e], by simp [he, Act.asked], hnext⟩
  | @tick timer status going inbox held poll =>
    have hpolled := h.poll now
    rw [poll] at hpolled
    obtain ⟨e, he, hnext⟩ := serveTick_reached hpolled ht
    exact ⟨[e], by simp [he, Act.asked], hnext⟩
  | overflow status going inbox held poll => exact absurd rfl ht
  | park status going inbox held => exact ⟨[], rfl, hsame.poll now⟩

theorem Step.reached (hstep : Step s as es t) (h : Reached past s.controller) (ht : t.status ≠ .crashed) :
    ∃ since, since.map Applied.asked = as.map Act.asked ∧ Reached (past ++ since) t.controller := by
  have hsame : Reached (past ++ []) s.controller := by rwa [List.append_nil]
  cases hstep with
  | turn now => exact (turn_turned now s).reached h ht
  | _ => exact ⟨[], rfl, hsame⟩

/-- **Sessions reach what their controllers could have reached on their own.** The controller of a session that did not
break down is reached by what the task had it do. -/
theorem Runs.reached (h : Runs s as es t) (hc : Reached past s.controller) (ht : t.status ≠ .crashed) :
    ∃ since, since.map Applied.asked = as.map Act.asked ∧ Reached (past ++ since) t.controller := by
  induction h with
  | refl => exact ⟨[], rfl, by simpa using hc⟩
  | @snoc as as' es es' t u front last ih =>
    obtain ⟨since, hsince, hreached⟩ := ih fun hcrashed => ht (last.crashed hcrashed)
    obtain ⟨more, hmore, hnext⟩ := last.reached hreached ht
    refine ⟨since ++ more, ?_, ?_⟩
    · rw [List.map_append, List.map_append, hsince, hmore]
    · rw [← List.append_assoc]
      exact hnext

end Session

end StepControl

/-
What a controller can do, said once: every operation is a sequence of moves.

A move is one thing that happens to a controller, with all that it writes (`Move`):
- a remark in the log, or a setting that changes;
- a program that is refused, or a session that starts, over one that was live or in place of none;
- a step of the live interpreter that goes on, asks for input, or halts;
- an input that goes on, or halts;
- a session that is paused, resumed or stopped, and a faulted one that is put back.
What the presenter makes of the announcements of a move is kept apart (`hear`): a move does not depend on it.

Between moves a controller is steady (`Steady`): the timer runs in `running` only, an input is pending in `awaitingInput`
only, an interpreter is there where one can be wanted, and so on. The controllers and entries that moves lead to have names
here (`halted`, `asking`, `started`; `farewell`, `question`, `greeting`), so that results about moves need not repeat them.

Results:
- `Move.steady`: every move leaves a steady controller behind.
- `Moves.trans`, `Moves.steady`: moves can be put one after the other.

That operations are sequences of moves is shown in `Performing`. What holds of every move then holds of every operation and
of every run; `Account`, `CallProtocol`, `Complaints` and `Records` each prove such a fact, by cases on `Move`.

Premises: a move takes place where its call on the interpreter is answered. Where it is not, see `Breakdowns`.
-/
import StepControl.Controller.Operation
import StepControl.Proofs.Gives
import StepControl.Proofs.StepBuffer

namespace StepControl

/-- a record of the log that does not tell of a session -/
def Note.isRemark : Note → Bool
  | .dispatching .. | .ignored .. | .inputRejected .. | .delayRejected .. | .tickDropped .. => true
  | _ => false

/-- the interpreter may be asked for a step -/
def Phase.canStep : Phase → Bool
  | .running | .steppingOnce | .paused => true
  | _ => false

theorem Phase.hasSession_of_canStep {p : Phase} (h : p.canStep = true) : p.hasSession = true := by
  cases p <;> simp_all [canStep, hasSession]

theorem Phase.ne_idle_of_hasSession {p : Phase} (h : p.hasSession = true) : p ≠ .idle := by
  rintro rfl
  exact absurd h (by decide)

def Halt.phase : Halt → Phase
  | .completion => .stopped
  | .fault _ => .faulted

/-- a halt that the user is told the message of -/
def Halt.isShown : Halt → Bool
  | .fault (.program _) => true
  | _ => false

/-- the text that an operation hands to an interpreter that waits for input -/
def Operation.input? : Operation → Option String
  | .supplyInput text | .dispatch (.supplyInput text) => some text
  | _ => none

def Intent.operation : Intent → Operation
  | .load text => .load text
  | .run => .run
  | .firstStep => .firstStep
  | .step => .step
  | .pause => .pause
  | .resume => .resume
  | .stop => .stop
  | .supplyInput text => .supplyInput text
  | .setDelay millis => .setDelay millis
  | .setOptimize on => .setOptimize on

/-- an operation is a tick, one that an intent names, or the dispatch of an intent -/
theorem Operation.kinds (op : Operation) :
    op = .tick ∨ (∃ intent : Intent, op = intent.operation) ∨ ∃ intent, op = .dispatch intent := by
  cases op with
  | load text => exact Or.inr (Or.inl ⟨.load text, rfl⟩)
  | setOptimize on => exact Or.inr (Or.inl ⟨.setOptimize on, rfl⟩)
  | run => exact Or.inr (Or.inl ⟨.run, rfl⟩)
  | firstStep => exact Or.inr (Or.inl ⟨.firstStep, rfl⟩)
  | step => exact Or.inr (Or.inl ⟨.step, rfl⟩)
  | pause => exact Or.inr (Or.inl ⟨.pause, rfl⟩)
  | resume => exact Or.inr (Or.inl ⟨.resume, rfl⟩)
  | stop => exact Or.inr (Or.inl ⟨.stop, rfl⟩)
  | supplyInput text => exact Or.inr (Or.inl ⟨.supplyInput text, rfl⟩)
  | setDelay millis => exact Or.inr (Or.inl ⟨.setDelay millis, rfl⟩)
  | tick => exact Or.inl rfl
  | dispatch intent => exact Or.inr (Or.inr ⟨intent, rfl⟩)

/-- a reply as a dispatch passes it on -/
def Reply.toResult : Reply → Except Error Unit
  | .result answer => answer
  | .started (.error e) => .error e
  | .nothing | .started (.ok _) | .stepped _ => .ok ()

namespace Controller

variable {I L P : Type}

/-! ## What the presenter hears -/

def notices (j : List (Entry I)) : List Notice := j.filterMap Entry.notice?

/-- the controller after its presenter heard the announcements among `j` -/
def hear [Presenter P] (c : Controller I L P) (j : List (Entry I)) : Controller I L P :=
  { c with presenter := (notices j).foldl Presenter.accept c.presenter }

@[simp] theorem notices_append (j k : List (Entry I)) : notices (j ++ k) = notices j ++ notices k := List.filterMap_append

@[simp] theorem notices_nil : notices ([] : List (Entry I)) = [] := rfl

@[simp] theorem notices_cons_loaded (serial : Nat) (text : String) (j : List (Entry I)) :
    notices (.loaded serial text :: j) = notices j := rfl

@[simp] theorem notices_cons_called (serial : Nat) (before : I) (call : Call) (j : List (Entry I)) :
    notices (.called serial before call :: j) = notices j := rfl

@[simp] theorem notices_cons_shown (n : Notice) (j : List (Entry I)) : notices (.shown n :: j) = n :: notices j := rfl

@[simp] theorem notices_cons_noted (n : Note) (j : List (Entry I)) : notices (.noted n :: j) = notices j := rfl

@[simp] theorem notices_shown (ns : List Notice) : notices (I := I) (ns.map .shown) = ns := by
  simp [notices, List.filterMap_map, Entry.notice?, Function.comp_def]

@[simp] theorem notices_noted (ns : List Note) : notices (I := I) (ns.map .noted) = [] := by
  simp [notices, List.filterMap_map, Entry.notice?, Function.comp_def]

theorem hear_append [Presenter P] (c : Controller I L P) (j k : List (Entry I)) :
    c.hear (j ++ k) = (c.hear j).hear k := by
  simp [hear, notices_append, List.foldl_append]

section

variable [Presenter P] (c : Controller I L P) (j : List (Entry I))

@[simp] theorem hear_config : (c.hear j).config = c.config := rfl

@[simp] theorem hear_phase : (c.hear j).phase = c.phase := rfl

@[simp] theorem hear_loader : (c.hear j).loader = c.loader := rfl

@[simp] theorem hear_loads : (c.hear j).loads = c.loads := rfl

@[simp] theorem hear_live : (c.hear j).live = c.live := rfl

@[simp] theorem hear_program : (c.hear j).program = c.program := rfl

@[simp] theorem hear_optimize : (c.hear j).optimize = c.optimize := rfl

@[simp] theorem hear_buffer : (c.hear j).buffer = c.buffer := rfl

@[simp] theorem hear_timer : (c.hear j).timer = c.timer := rfl

@[simp] theorem hear_gate : (c.hear j).gate = c.gate := rfl

@[simp] theorem hear_session : (c.hear j).session = c.session := rfl

@[simp] theorem hear_errorShown : (c.hear j).errorShown = c.errorShown := rfl

end

/-! ## Entries and states that moves are made of -/

/-- the entries of a change of phase -/
def change (c : Controller I L P) (target : Phase) : List (Entry I) :=
  [.noted (.phaseChanged c.session c.phase target), .shown (.phaseChanged target)]

/-- the entries of a halt -/
def farewell (c : Controller I L P) : Halt → List (Entry I)
  | .completion => .noted (.completed c.session) :: c.change .stopped
  | .fault (.program message) =>
    .noted (.programFault c.session (.program message)) :: .shown (.error message) :: c.change .faulted
  | .fault (.internal message) => .noted (.internalFault c.session (.internal message)) :: c.change .faulted

def halted (c : Controller I L P) (why : Halt) : Controller I L P :=
  { c with phase := why.phase, timer := c.timer.stop, gate := {}, errorShown := why.isShown || c.errorShown }

/-- the entries of a call of `next`: the call, the requests that came too late, the output and the moves -/
def stepEntries (c : Controller I L P) (inst : Instance I) (hooks : List Hook) (verdict : Verdict) : List (Entry I) :=
  .called inst.serial inst.machine (.next c.optimize hooks (some verdict)) ::
    ((StepBuffer.late false hooks).map (.noted ∘ .requestTooLate) ++ (hooks.filterMap progress?).map .shown)

/-- the live interpreter has moved on to `machine` -/
def advanced (c : Controller I L P) (inst : Instance I) (machine : I) : Controller I L P :=
  { c with live := some { inst with machine } }

/-- the entries of a request for input -/
def question (c : Controller I L P) (cell : Cell) : List (Entry I) :=
  c.change .awaitingInput ++ [.shown (.inputRequested cell)]

def asking (c : Controller I L P) (cell : Cell) : Controller I L P :=
  { c with phase := .awaitingInput, timer := c.timer.stop, gate := ⟨some cell⟩ }

/-- the timer drives the interpreter from `now` on -/
def resumed (now : Instant) (c : Controller I L P) : Controller I L P :=
  { c with phase := .running, timer := c.timer.start now, gate := {} }

/-- the entries of an end of the session that brings the interpreter back to its origin -/
def teardown (c : Controller I L P) (inst : Instance I) (target : Phase) : List (Entry I) :=
  .called inst.serial inst.machine (.reset true) :: .noted (.sessionStopped c.session) :: c.change target

/-- the controller after such an end -/
def ended (c : Controller I L P) (target : Phase) : Controller I L P :=
  { c with phase := target, timer := c.timer.stop, gate := {}, live := none }

def nextSession (c : Controller I L P) : Nat := c.session.getD 0 + 1

/-- the entries of the start of a session in place of none, up to the clearing of the displays -/
def beginning (c : Controller I L P) (inst : Instance I) : List (Entry I) :=
  [.called inst.serial inst.machine (.reset true), .noted (.sessionStarted c.nextSession c.delay), .shown .reset]

/-- the controller then, with `inst` brought back to its origin -/
def begun (c : Controller I L P) (inst : Instance I) : Controller I L P :=
  { c with
    timer := c.timer.stop
    gate := {}
    session := some c.nextSession
    live := some inst
    errorShown := false }

/-- all entries of the start of a session in place of none -/
def greeting (c : Controller I L P) (inst : Instance I) (target : Phase) : List (Entry I) :=
  c.beginning inst ++ (c.begun inst).change target

/-- the controller after the start of a session in place of none -/
def started (now : Instant) (c : Controller I L P) (inst : Instance I) (target : Phase) : Controller I L P :=
  { c.begun inst with phase := target, timer := if target = .running then c.timer.start now else c.timer.stop }

def built [Loader L I] (c : Controller I L P) : Instance I := ⟨c.loads + 1, (Loader.load c.loader c.program).1⟩

def loaded [Loader L I] (c : Controller I L P) : Controller I L P :=
  { c with loader := (Loader.load c.loader c.program).2, loads := c.loads + 1 }

/-- the entries of a loader call and the check of what it built -/
def loadEntries [Loader L I] (c : Controller I L P) (answer : Check) : List (Entry I) :=
  [.loaded c.built.serial c.program, .called c.built.serial c.built.machine (.check (some answer))]

/-- the entries of a start that is refused -/
def refusal [Loader L I] (c : Controller I L P) (message : String) : List (Entry I) :=
  c.loadEntries (.rejected message) ++ [.noted (.programRejected message c.phase), .shown (.error message)]

/-- the entries of a start that is not, where `j` are those of the end of the session before it, which leaves `d` -/
def startEntries [Loader L I] (c d : Controller I L P) (j : List (Entry I)) (target : Phase) : List (Entry I) :=
  c.loadEntries .accepted ++ (j ++ d.greeting c.built target)

theorem hear_startEntries [Loader L I] [Presenter P] (c d e : Controller I L P) (j : List (Entry I)) (target : Phase) :
    e.hear (c.startEntries d j target) = (e.hear (j ++ d.beginning c.built)).hear ((d.begun c.built).change target) := by
  simp [hear, startEntries, greeting, loadEntries, List.foldl_append]

/-! ## Steady controllers -/

variable {c : Controller I L P}

/-- what holds of a controller between two moves -/
structure Steady (c : Controller I L P) : Prop where
  timer : c.timer.isActive = true ↔ c.phase = .running
  pending : c.pending.isSome = true ↔ c.phase = .awaitingInput
  live : c.phase.hasSession = true ∨ c.phase = .faulted → c.live.isSome = true
  idle : c.phase = .idle → c.live = none
  buffer : c.buffer = {}
  errorShown : c.phase.hasSession = true → c.errorShown = false
  session : c.session = none → c.phase = .idle

theorem Steady.hear [Presenter P] (h : Steady c) (j : List (Entry I)) : Steady (c.hear j) :=
  ⟨h.timer, h.pending, h.live, h.idle, h.buffer, h.errorShown, h.session⟩

theorem Steady.loaded [Loader L I] (h : Steady c) : Steady c.loaded :=
  ⟨h.timer, h.pending, h.live, h.idle, h.buffer, h.errorShown, h.session⟩

theorem Steady.timer_off (h : Steady c) (hp : c.phase ≠ .running) : c.timer.schedule = none := by
  simpa [Timer.isActive] using mt h.timer.1 hp

/-- only the timer of a running session gives ticks -/
theorem Steady.running_of_ready {now : Instant} (h : Steady c) (hready : (c.timer.poll now).1 = .ready) :
    c.phase = .running := by
  by_cases hp : c.phase = .running
  · exact hp
  · simp [Timer.poll, h.timer_off hp] at hready

theorem Steady.stop_eq (h : Steady c) (hp : c.phase ≠ .running) : c.timer.stop = c.timer := by
  have hoff := h.timer_off hp
  cases hc : c.timer
  simp_all [Timer.stop]

theorem Steady.gate_eq (h : Steady c) (hp : c.phase ≠ .awaitingInput) : c.gate = {} := by
  have hclosed : c.gate.pending = none := by
    simpa [Controller.pending] using mt h.pending.1 hp
  cases hc : c.gate
  simp_all

theorem Steady.exists_live (h : Steady c) (hp : c.phase.hasSession = true ∨ c.phase = .faulted) :
    ∃ inst, c.live = some inst :=
  Option.isSome_iff_exists.1 (h.live hp)

theorem Steady.advanced {inst : Instance I} (h : Steady c) (hl : c.live = some inst) (machine : I) :
    Steady (c.advanced inst machine) where
  timer := h.timer
  pending := h.pending
  live _ := rfl
  idle hi := absurd (h.idle hi) (by simp [hl])
  buffer := h.buffer
  errorShown := h.errorShown
  session := h.session

theorem Steady.resumed (h : Steady c) (hp : c.phase.hasSession = true) (now : Instant) : Steady (c.resumed now) where
  timer := by simp [Controller.resumed]
  pending := by simp [Controller.resumed, Controller.pending]
  live _ := h.live (Or.inl hp)
  idle hi := by simp [Controller.resumed] at hi
  buffer := h.buffer
  errorShown _ := h.errorShown hp
  session hn := absurd (h.session hn) (Phase.ne_idle_of_hasSession hp)

/-- a session that halts leaves a steady controller behind -/
theorem Steady.halted (h : Steady c) (hp : c.phase.hasSession = true) (inst : Instance I) (machine : I) (why : Halt) :
    Steady ((c.advanced inst machine).halted why) := by
  refine ⟨?_, ?_, ?_, ?_, h.buffer, ?_, ?_⟩
  · cases why <;> simp [Controller.halted, Halt.phase]
  · cases why <;> simp [Controller.halted, Controller.pending, Halt.phase]
  · intro _; rfl
  · cases why <;> simp [Controller.halted, Halt.phase]
  · cases why <;> simp [Controller.halted, Halt.phase, Phase.hasSession]
  · exact fun hs => absurd (h.session hs) (Phase.ne_idle_of_hasSession hp)

/-- an end of a session that resets the interpreter leaves a steady controller behind -/
theorem Steady.ended (h : Steady c) (hp : c.phase ≠ .idle) {target : Phase}
    (ht : target = .stopped ∨ target = .idle) : Steady (c.ended target) := by
  refine ⟨?_, ?_, ?_, fun _ => rfl, h.buffer, ?_, fun hs => absurd (h.session hs) hp⟩
  all_goals obtain rfl | rfl := ht
  all_goals simp [Controller.ended, Controller.pending, Phase.hasSession]

/-! ## Moves -/

variable [Interpreter I]

/-- a controller without a live session, from one that may have had one -/
inductive Cleared : Controller I L P → List (Entry I) → Controller I L P → Prop where
  | empty {c : Controller I L P} (vacant : c.phase.hasSession = false) : Cleared c [] c
  | stopped {c : Controller I L P} {inst : Instance I} {machine : I} (busy : c.phase.hasSession = true)
      (live : c.live = some inst) (reset : Interpreter.reset inst.machine = some machine) :
      Cleared c (c.teardown inst .stopped) (c.ended .stopped)

theorem Cleared.steady {d : Controller I L P} {j : List (Entry I)} (h : Steady c) (hc : Cleared c j d) :
    Steady d ∧ d.phase.hasSession = false := by
  cases hc with
  | empty vacant => exact ⟨h, vacant⟩
  | stopped busy live reset => exact ⟨h.ended (Phase.ne_idle_of_hasSession busy) (Or.inl rfl), rfl⟩

theorem Cleared.phase_ne {d : Controller I L P} {j : List (Entry I)} (hc : Cleared c j d) {target : Phase}
    (ht : target.hasSession = true) : d.phase ≠ target := by
  rintro rfl
  cases hc with
  | empty vacant => simp [vacant] at ht
  | stopped busy live reset => exact absurd ht (by simp [ended, Phase.hasSession])

variable [Loader L I]

/-- one thing that happens to a controller at `now`, apart from what its presenter makes of it; `given` is the text at
hand for an interpreter that waits for input -/
inductive Move (now : Instant) (given : Option String) :
    Controller I L P → List (Entry I) → Controller I L P → Prop where
  | remark (c : Controller I L P) (note : Note) (isRemark : note.isRemark = true) : Move now given c [.noted note] c
  | load (c : Controller I L P) (text : String) : Move now given c [] { c with program := text }
  | setOptimize (c : Controller I L P) (on : Bool) : Move now given c [] { c with optimize := on }
  | setDelay (c : Controller I L P) (delay : Delay) :
      Move now given c [.noted (.delayChanged delay c.timer.isActive)] { c with timer := c.timer.setDelay now delay }
  | refuse {c : Controller I L P} {message : String}
      (check : Interpreter.check c.built.machine = some (.rejected message)) :
      Move now given c (c.refusal message) c.loaded
  | start {c d : Controller I L P} {j : List (Entry I)} {machine : I} {target : Phase}
      (check : Interpreter.check c.built.machine = some .accepted) (cleared : Cleared c.loaded j d)
      (reset : Interpreter.reset c.built.machine = some machine)
      (kind : target = .running ∨ target = .steppingOnce) :
      Move now given c (c.startEntries d j target) (d.started now { c.built with machine } target)
  | proceed {c : Controller I L P} {inst : Instance I} {hooks : List Hook} {machine : I}
      (phase : c.phase.canStep = true) (live : c.live = some inst)
      (next : Interpreter.next inst.machine c.optimize = ⟨hooks, some (.proceed, machine)⟩)
      (silent : StepBuffer.firstRequest hooks = none) :
      Move now given c (c.stepEntries inst hooks .proceed) (c.advanced inst machine)
  | ask {c : Controller I L P} {inst : Instance I} {hooks : List Hook} {machine : I} {cell : Cell}
      (phase : c.phase.canStep = true) (live : c.live = some inst)
      (next : Interpreter.next inst.machine c.optimize = ⟨hooks, some (.proceed, machine)⟩)
      (asked : StepBuffer.firstRequest hooks = some cell) :
      Move now given c (c.stepEntries inst hooks .proceed ++ c.question cell) ((c.advanced inst machine).asking cell)
  | halt {c : Controller I L P} {inst : Instance I} {hooks : List Hook} {machine : I} {why : Halt}
      (phase : c.phase.canStep = true) (live : c.live = some inst)
      (next : Interpreter.next inst.machine c.optimize = ⟨hooks, some (.halt why, machine)⟩) :
      Move now given c (c.stepEntries inst hooks (.halt why) ++ c.farewell why)
        ((c.advanced inst machine).halted why)
  | supply {c : Controller I L P} {inst : Instance I} {machine : I} {cell : Cell} {text : String}
      (phase : c.phase = .awaitingInput) (hand : given = some text) (pending : c.pending = some cell)
      (live : c.live = some inst) (put : Interpreter.put inst.machine cell text = some (.proceed, machine)) :
      Move now given c (.called inst.serial inst.machine (.put cell text (some .proceed)) :: c.change .running)
        ((c.advanced inst machine).resumed now)
  | supplyHalt {c : Controller I L P} {inst : Instance I} {machine : I} {cell : Cell} {text : String} {why : Halt}
      (phase : c.phase = .awaitingInput) (hand : given = some text) (pending : c.pending = some cell)
      (live : c.live = some inst) (put : Interpreter.put inst.machine cell text = some (.halt why, machine)) :
      Move now given c (.called inst.serial inst.machine (.put cell text (some (.halt why))) :: c.farewell why)
        ((c.advanced inst machine).halted why)
  | pause {c : Controller I L P} (phase : c.phase = .running ∨ c.phase = .steppingOnce) :
      Move now given c (c.change .paused) { c with phase := .paused, timer := c.timer.stop }
  | resume {c : Controller I L P} (phase : c.phase = .paused) :
      Move now given c (c.change .running) (c.resumed now)
  | stop {c d : Controller I L P} {j : List (Entry I)} (busy : c.phase.hasSession = true) (cleared : Cleared c j d) :
      Move now given c j d
  | rearm {c : Controller I L P} {inst : Instance I} {machine : I} (phase : c.phase = .faulted)
      (live : c.live = some inst) (reset : Interpreter.reset inst.machine = some machine) :
      Move now given c (c.teardown inst .idle) (c.ended .idle)

variable {now : Instant} {given : Option String} {d e : Controller I L P} {j k : List (Entry I)}

/-- **Every move leaves a steady controller behind.** -/
theorem Move.steady (h : Steady c) (hm : Move now given c j d) : Steady d := by
  cases hm with
  | remark note isRemark => exact h
  | load text => exact ⟨h.timer, h.pending, h.live, h.idle, h.buffer, h.errorShown, h.session⟩
  | setOptimize on => exact ⟨h.timer, h.pending, h.live, h.idle, h.buffer, h.errorShown, h.session⟩
  | setDelay delay =>
    exact ⟨by simpa using h.timer, h.pending, h.live, h.idle, h.buffer, h.errorShown, h.session⟩
  | refuse check => exact h.loaded
  | start check cleared reset kind =>
    obtain ⟨hd, -⟩ := cleared.steady h.loaded
    obtain rfl | rfl := kind <;>
      exact ⟨by simp [started], by simp [started, begun, Controller.pending], fun _ => rfl, by simp [started], hd.buffer,
        fun _ => rfl, by simp [started, begun]⟩
  | proceed phase live next silent => exact h.advanced live _
  | ask phase live next asked =>
    have hs := Phase.hasSession_of_canStep phase
    exact ⟨by simp [asking], by simp [asking, Controller.pending], fun _ => rfl, by simp [asking], h.buffer,
      fun _ => h.errorShown hs, fun hn => absurd (h.session hn) (Phase.ne_idle_of_hasSession hs)⟩
  | halt phase live next => exact h.halted (Phase.hasSession_of_canStep phase) _ _ _
  | supply phase hand pending live put => exact (h.advanced live _).resumed (by rw [advanced, phase]; rfl) now
  | supplyHalt phase hand pending live put => exact h.halted (by rw [phase]; rfl) _ _ _
  | pause phase =>
    have hs : c.phase.hasSession = true := by obtain hp | hp := phase <;> rw [hp] <;> rfl
    have hg := h.gate_eq (by rintro hp; simp [hp] at phase)
    exact ⟨by simp, by simp [Controller.pending, hg], fun _ => h.live (Or.inl hs), by simp, h.buffer,
      fun _ => h.errorShown hs, fun hn => absurd (h.session hn) (Phase.ne_idle_of_hasSession hs)⟩
  | resume phase => exact h.resumed (by rw [phase]; rfl) now
  | stop busy cleared => exact (cleared.steady h).1
  | rearm phase live reset => exact h.ended (by rw [phase]; decide) (Or.inr rfl)

/-! ## Sequences of moves -/

variable [Presenter P]

/-- moves one after the other, with the presenter hearing what each of them announces -/
inductive Moves (now : Instant) (given : Option String) :
    Controller I L P → List (Entry I) → Controller I L P → Prop where
  | refl (c : Controller I L P) : Moves now given c [] c
  | step {c d e : Controller I L P} {j k : List (Entry I)} (first : Move now given c j d)
      (rest : Moves now given (d.hear j) k e) : Moves now given c (j ++ k) e

theorem Move.moves (h : Move now given c j d) : Moves now given c j (d.hear j) := by
  simpa using Moves.step h (.refl _)

theorem Moves.trans (h : Moves now given c j d) (h' : Moves now given d k e) : Moves now given c (j ++ k) e := by
  induction h with
  | refl => simpa using h'
  | step first _ ih => simpa using Moves.step first (ih h')

theorem Moves.steady (h : Steady c) (hm : Moves now given c j d) : Steady d := by
  induction hm with
  | refl => exact h
  | step first _ ih => exact ih ((first.steady h).hear _)

end Controller

end StepControl

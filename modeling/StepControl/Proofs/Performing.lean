/-
What an operation on a controller at rest did is a sequence of moves.

The actions that operations are made of come first, each with what it gives where the interpreter answers its calls. Their
order is that of the operations' own text:
- `gives_goTo`, `gives_halt`, `gives_awaitInput`: changes of phase, with their announcements and log records;
- `gives_executeStep_end`: a step whose call is answered ends in one of the ways of `StepEnd`;
- `gives_stop`, `gives_begin`, `gives_prepare_accepted`, `gives_prepare_rejected`: the parts of a start;
- `gives_supplyInput_proceed`, `gives_supplyInput_halt`: an input.

Then what breaks down where the interpreter does: `run_breaks`, `firstStep_breaks`, `executeStep_breaks`, `stop_breaks`,
`supplyInput_breaks`. Together with the first group they make a case analysis for each operation, in which every case either
gives something that is known or does not return (`Steady.start_cases`, `executeStep_cases`, `stop_cases`,
`supplyInput_cases`).

Results:
- `perform_yields`: where an operation on a steady controller returns, what it did is a sequence of moves.
- `perform_moves`: with an interpreter that never breaks down every operation returns, so each of them is one.

Premises: the controller is steady, and not in the middle of a first step, which no operation leaves behind. `perform_moves`
is the only result here for which the interpreter has to be sound.
-/
import StepControl.Proofs.Moves
import StepControl.Proofs.Oblivious

namespace StepControl.Controller

open StepControl.Action

variable {I L P : Type} {c : Controller I L P} {post : Unit → Controller I L P → List (Entry I) → Prop}

/-! ## The small actions -/

@[simp] theorem gives_note (notes : List Note) :
    (note notes : Drive I L P Unit).Gives c post ↔ post () c (notes.map .noted) :=
  gives_of_eq (note_apply notes c)

@[simp] theorem gives_called (inst : Instance I) (call : Call) :
    (called inst call : Drive I L P Unit).Gives c post ↔ post () c [.called inst.serial inst.machine call] :=
  gives_of_eq (called_apply inst call c)

@[simp] theorem gives_ignore (intent : Intent) :
    (ignore intent : Drive I L P Unit).Gives c post ↔ post () c [.noted (.ignored intent c.phase)] :=
  gives_of_eq (ignore_apply intent c)

@[simp] theorem gives_disarm :
    (disarm : Drive I L P Unit).Gives c post ↔ post () { c with timer := c.timer.stop, gate := {} } [] :=
  gives_of_eq (disarm_apply c)

@[simp] theorem gives_arm (now : Instant) :
    (arm now : Drive I L P Unit).Gives c post ↔ post () { c with timer := c.timer.start now } [] :=
  gives_of_eq (arm_apply now c)

theorem gives_resetInstance [Interpreter I] {inst : Instance I} {machine : I}
    {post : Instance I → Controller I L P → List (Entry I) → Prop}
    (h : Interpreter.reset inst.machine = some machine) :
    (resetInstance inst : Drive I L P (Instance I)).Gives c post ↔
      post { inst with machine } c [.called inst.serial inst.machine (.reset true)] := by
  simp [resetInstance, h]

@[simp] theorem notices_stepEntries (inst : Instance I) (hooks : List Hook) (verdict : Verdict) :
    notices (c.stepEntries inst hooks verdict) = hooks.filterMap progress? := by
  simp only [stepEntries, ← List.map_map, notices_cons_called, notices_append, notices_noted, notices_shown,
    List.nil_append]

variable [Presenter P]

@[simp] theorem gives_announce (notice : Notice) :
    (announce notice : Drive I L P Unit).Gives c post ↔ post () (c.hear [.shown notice]) [.shown notice] :=
  gives_of_eq (announce_apply notice c)

@[simp] theorem gives_announceAll (ns : List Notice) :
    (announceAll ns : Drive I L P Unit).Gives c post ↔ post () (c.hear (ns.map .shown)) (ns.map .shown) := by
  rw [gives_of_eq (announceAll_apply ns c), hear, notices_shown]

theorem gives_goTo (target : Phase) :
    (goTo target : Drive I L P Unit).Gives c post ↔
      if c.phase = target then post () c []
      else post () ({ c with phase := target }.hear (c.change target)) (c.change target) := by
  split
  case isTrue h => rw [gives_of_eq (a := ()) (by rw [goTo_apply, if_pos h])]
  case isFalse h =>
    rw [gives_of_eq (a := ()) (by rw [goTo_apply, if_neg h])]
    rfl

/-- a first step pauses where it has not led elsewhere -/
theorem gives_pauseAfter {post : Except Error Outcome → Controller I L P → List (Entry I) → Prop}
    (result : Except Error Outcome) :
    (if c.phase = .steppingOnce then do goTo .paused; pure result
      else pure result : Drive I L P (Except Error Outcome)).Gives c post ↔
      if c.phase = .steppingOnce then post result ({ c with phase := .paused }.hear (c.change .paused)) (c.change .paused)
      else post result c [] := by
  split
  case isTrue h => simp [gives_goTo, h]
  case isFalse h => simp

/-! ## Steps -/

def Halt.outcome : Halt → Outcome
  | .completion => .completed
  | .fault fault => .faulted fault

/-- a live session that halts says farewell -/
theorem gives_halt {post : Outcome → Controller I L P → List (Entry I) → Prop} (hp : c.phase.hasSession = true)
    (he : c.errorShown = false) (why : Halt) :
    (halt why : Drive I L P Outcome).Gives c post ↔
      post (Halt.outcome why) ((c.halted why).hear (c.farewell why)) (c.farewell why) := by
  have hs : c.phase ≠ .stopped := by rintro hq; simp [hq, Phase.hasSession] at hp
  have hf : c.phase ≠ .faulted := by rintro hq; simp [hq, Phase.hasSession] at hp
  rcases why with _ | ⟨message⟩ | ⟨message⟩
  · simp [halt, gives_goTo, hs]
    rfl
  · simp [halt, showFault, gives_goTo, gives_ite, he, hf]
    rfl
  · simp [halt, gives_goTo, hf]
    rfl

/-- a step that asks for input leaves the controller waiting -/
theorem gives_awaitInput {cell : Cell} {now : Instant} (hp : c.phase ≠ .awaitingInput) (hg : c.gate = {}) :
    (awaitInput now cell : Drive I L P Unit).Gives c post ↔
      post () ((c.asking cell).hear (c.question cell)) (c.question cell) := by
  simp [awaitInput, follow, gives_goTo, Gate.request, Gate.displaced?, hg, hp]
  rfl

variable [Interpreter I] {inst : Instance I} {hooks : List Hook} {machine : I}
  {post : Outcome → Controller I L P → List (Entry I) → Prop}

/-- what a step goes on with after its verdict -/
def aftermath (now : Instant) (hooks : List Hook) : Verdict → Drive I L P Outcome
  | .halt why => halt why
  | .proceed => settleStep now (StepBuffer.fill {} hooks).1

/-- a step calls the interpreter, tells what the hooks reported, and then does as the verdict says -/
theorem gives_executeStep (h : Steady c) (hl : c.live = some inst) {verdict : Verdict}
    (hn : Interpreter.next inst.machine c.optimize = ⟨hooks, some (verdict, machine)⟩) (now : Instant) :
    (executeStep now : Drive I L P Outcome).Gives c post ↔
      (aftermath now hooks verdict).Gives ((c.advanced inst machine).hear (c.stepEntries inst hooks verdict))
        fun b u k => post b u (c.stepEntries inst hooks verdict ++ k) := by
  have hheard : ∀ d : Controller I L P,
      d.hear ((hooks.filterMap progress?).map .shown) = d.hear (c.stepEntries inst hooks verdict) := by
    intro d
    simp only [hear, notices_stepEntries, notices_shown]
  have hadvanced : { c with buffer := {}, live := some ⟨inst.serial, machine⟩ } = c.advanced inst machine := by
    rw [← h.buffer]
    rfl
  simp [executeStep, hl, hn, h.buffer, StepBuffer.fill_progress, StepBuffer.fill_late, hheard, hadvanced]
  cases verdict <;> simp [aftermath, stepEntries]

theorem gives_executeStep_halt (h : Steady c) (hp : c.phase.canStep = true) (hl : c.live = some inst) {why : Halt}
    (hn : Interpreter.next inst.machine c.optimize = ⟨hooks, some (.halt why, machine)⟩) (now : Instant) :
    (executeStep now : Drive I L P Outcome).Gives c post ↔
      post (Halt.outcome why)
        (((c.advanced inst machine).halted why).hear (c.stepEntries inst hooks (.halt why) ++ c.farewell why))
        (c.stepEntries inst hooks (.halt why) ++ c.farewell why) := by
  have hs := Phase.hasSession_of_canStep hp
  rw [gives_executeStep h hl hn, aftermath, gives_halt (by exact hs) (by exact h.errorShown hs), hear_append]
  cases why with
  | completion => rfl
  | fault fault => cases fault <;> rfl

theorem gives_executeStep_proceed (h : Steady c) (hl : c.live = some inst)
    (hn : Interpreter.next inst.machine c.optimize = ⟨hooks, some (.proceed, machine)⟩)
    (hr : StepBuffer.firstRequest hooks = none) (now : Instant) :
    (executeStep now : Drive I L P Outcome).Gives c post ↔
      post (if (StepBuffer.fill {} hooks).1.output = [] then .advanced
          else .outputProduced (StepBuffer.fill {} hooks).1.output)
        ((c.advanced inst machine).hear (c.stepEntries inst hooks .proceed)) (c.stepEntries inst hooks .proceed) := by
  rw [gives_executeStep h hl hn]
  simp [aftermath, settleStep, StepBuffer.fill_request?, hr]

theorem gives_executeStep_ask (h : Steady c) (hp : c.phase.canStep = true) (hl : c.live = some inst) {cell : Cell}
    (hn : Interpreter.next inst.machine c.optimize = ⟨hooks, some (.proceed, machine)⟩)
    (hr : StepBuffer.firstRequest hooks = some cell) (now : Instant) :
    (executeStep now : Drive I L P Outcome).Gives c post ↔
      post (.inputRequested cell)
        (((c.advanced inst machine).asking cell).hear (c.stepEntries inst hooks .proceed ++ c.question cell))
        (c.stepEntries inst hooks .proceed ++ c.question cell) := by
  have ha : c.phase ≠ .awaitingInput := by rintro hq; simp [hq, Phase.canStep] at hp
  rw [gives_executeStep h hl hn]
  simp only [aftermath, settleStep, StepBuffer.fill_request?, hr, gives_bind, gives_pure]
  rw [gives_awaitInput (by exact ha) (by exact h.gate_eq ha), hear_append]
  simp only [List.append_nil]
  rfl

/-- how a step ends whose call was answered: what it comes to, the controller that it leaves, and what was done -/
inductive StepEnd (c : Controller I L P) (inst : Instance I) (hooks : List Hook) (machine : I) :
    Verdict → Outcome → Controller I L P → List (Entry I) → Prop where
  | halt (why : Halt) : StepEnd c inst hooks machine (.halt why) (Halt.outcome why)
      (((c.advanced inst machine).halted why).hear (c.stepEntries inst hooks (.halt why) ++ c.farewell why))
      (c.stepEntries inst hooks (.halt why) ++ c.farewell why)
  | proceed (silent : StepBuffer.firstRequest hooks = none) : StepEnd c inst hooks machine .proceed
      (if (StepBuffer.fill {} hooks).1.output = [] then .advanced
        else .outputProduced (StepBuffer.fill {} hooks).1.output)
      ((c.advanced inst machine).hear (c.stepEntries inst hooks .proceed)) (c.stepEntries inst hooks .proceed)
  | ask {cell : Cell} (asked : StepBuffer.firstRequest hooks = some cell) : StepEnd c inst hooks machine .proceed
      (.inputRequested cell)
      (((c.advanced inst machine).asking cell).hear (c.stepEntries inst hooks .proceed ++ c.question cell))
      (c.stepEntries inst hooks .proceed ++ c.question cell)

/-- **A step whose call is answered ends in one of these ways.** -/
theorem gives_executeStep_end (h : Steady c) (hp : c.phase.canStep = true) (hl : c.live = some inst) {verdict : Verdict}
    (hn : Interpreter.next inst.machine c.optimize = ⟨hooks, some (verdict, machine)⟩) (now : Instant) :
    (executeStep now : Drive I L P Outcome).Gives c (StepEnd c inst hooks machine verdict) := by
  cases verdict with
  | halt why =>
    rw [gives_executeStep_halt h hp hl hn]
    exact .halt why
  | proceed =>
    cases hr : StepBuffer.firstRequest hooks with
    | none =>
      rw [gives_executeStep_proceed h hl hn hr]
      exact .proceed hr
    | some cell =>
      rw [gives_executeStep_ask h hp hl hn hr]
      exact .ask hr

/-! ## Ends and starts of sessions -/

variable {post : Unit → Controller I L P → List (Entry I) → Prop}

def stopTarget (c : Controller I L P) : Phase := if c.phase = .faulted then .idle else .stopped

theorem gives_stop (hp : c.phase.hasSession = true ∨ c.phase = .faulted) (hl : c.live = some inst)
    (hr : Interpreter.reset inst.machine = some machine) :
    (stop : Drive I L P Unit).Gives c post ↔
      post () ((c.ended c.stopTarget).hear (c.teardown inst c.stopTarget)) (c.teardown inst c.stopTarget) := by
  cases hq : c.phase <;> simp [hq, Phase.hasSession] at hp
  all_goals
    simp [stop, hq, hl, gives_resetInstance hr, gives_goTo, stopTarget, teardown, change]
    rfl

theorem gives_stop_vacant (hp : c.phase = .idle ∨ c.phase = .stopped) :
    (stop : Drive I L P Unit).Gives c post ↔ post () c [.noted (.ignored .stop c.phase)] := by
  obtain hq | hq := hp <;> simp [stop, hq]

/-- a session begins where the one before it is over -/
theorem gives_begin {d : Controller I L P} {j : List (Entry I)} (hc : Cleared c j d)
    (hr : Interpreter.reset inst.machine = some machine) :
    (begin inst : Drive I L P Unit).Gives c post ↔
      post () ((d.begun { inst with machine }).hear (j ++ d.beginning inst)) (j ++ d.beginning inst) := by
  cases hc with
  | empty vacant =>
    simp [begin, vacant, gives_resetInstance hr, gives_ite]
    rfl
  | stopped busy live reset =>
    have hf : c.phase ≠ .faulted := by rintro hq; simp [hq, Phase.hasSession] at busy
    simp [begin, busy, gives_stop (Or.inl busy) live reset, gives_resetInstance hr, gives_ite, stopTarget, hf]
    rfl

variable [Loader L I]

theorem gives_prepare_accepted {post : Except Error (Instance I) → Controller I L P → List (Entry I) → Prop}
    (h : Interpreter.check c.built.machine = some .accepted) :
    (prepare : Drive I L P (Except Error (Instance I))).Gives c post ↔
      post (.ok c.built) c.loaded (c.loadEntries .accepted) := by
  simp only [built] at h
  simp [prepare, h, loaded, loadEntries, built]

theorem gives_prepare_rejected {post : Except Error (Instance I) → Controller I L P → List (Entry I) → Prop}
    {message : String} (h : Interpreter.check c.built.machine = some (.rejected message)) :
    (prepare : Drive I L P (Except Error (Instance I))).Gives c post ↔
      post (.error (.badProgram message)) (c.loaded.hear (c.refusal message)) (c.refusal message) := by
  simp only [built] at h
  simp [prepare, h, loaded, refusal, loadEntries, built]
  rfl

theorem gives_run_rejected {post : Except Error Unit → Controller I L P → List (Entry I) → Prop} {message : String}
    (h : Interpreter.check c.built.machine = some (.rejected message)) (now : Instant) :
    (run now : Drive I L P (Except Error Unit)).Gives c post ↔
      post (.error (.badProgram message)) (c.loaded.hear (c.refusal message)) (c.refusal message) := by
  simp only [run, gives_bind]
  rw [gives_prepare_rejected h]
  simp

theorem gives_firstStep_rejected {post : Except Error Outcome → Controller I L P → List (Entry I) → Prop}
    {message : String} (h : Interpreter.check c.built.machine = some (.rejected message)) (now : Instant) :
    (firstStep now : Drive I L P (Except Error Outcome)).Gives c post ↔
      post (.error (.badProgram message)) (c.loaded.hear (c.refusal message)) (c.refusal message) := by
  simp only [firstStep, gives_bind]
  rw [gives_prepare_rejected h]
  simp

theorem gives_run_accepted {post : Except Error Unit → Controller I L P → List (Entry I) → Prop}
    {d : Controller I L P} {j : List (Entry I)} (h : Interpreter.check c.built.machine = some .accepted)
    (hc : Cleared c.loaded j d) (hr : Interpreter.reset c.built.machine = some machine) (now : Instant) :
    (run now : Drive I L P (Except Error Unit)).Gives c post ↔
      post (.ok ()) ((d.started now { c.built with machine } .running).hear (c.startEntries d j .running))
        (c.startEntries d j .running) := by
  have hd : (d.begun { c.built with machine }).phase ≠ .running := hc.phase_ne rfl
  simp only [run, gives_bind]
  rw [gives_prepare_accepted h, gives_bind, gives_begin hc hr]
  simp only [gives_bind, gives_arm, gives_goTo, hear_phase, hd, if_false, gives_pure, List.nil_append, List.append_nil]
  rw [hear_startEntries, List.append_assoc]
  rfl

theorem gives_firstStep_accepted {post : Except Error Outcome → Controller I L P → List (Entry I) → Prop}
    {d : Controller I L P} {j : List (Entry I)} (h : Interpreter.check c.built.machine = some .accepted)
    (hc : Cleared c.loaded j d) (hr : Interpreter.reset c.built.machine = some machine) (now : Instant) :
    (firstStep now : Drive I L P (Except Error Outcome)).Gives c post ↔
      (executeStep now : Drive I L P Outcome).Gives
        ((d.started now { c.built with machine } .steppingOnce).hear (c.startEntries d j .steppingOnce))
        fun outcome e k =>
          if e.phase = .steppingOnce then
            post (.ok outcome) ({ e with phase := .paused }.hear (e.change .paused))
              (c.startEntries d j .steppingOnce ++ (k ++ e.change .paused))
          else post (.ok outcome) e (c.startEntries d j .steppingOnce ++ k) := by
  have hd : (d.begun { c.built with machine }).phase ≠ .steppingOnce := hc.phase_ne rfl
  simp only [firstStep, gives_bind]
  rw [gives_prepare_accepted h, gives_bind, gives_begin hc hr]
  simp only [gives_bind, gives_goTo, gives_read, hear_phase, hd, if_false, gives_pauseAfter, List.nil_append]
  rw [hear_startEntries]
  simp only [startEntries, greeting, List.append_assoc, List.append_nil]
  rfl

/-! ## Input -/

section

variable {post : Except Error Unit → Controller I L P → List (Entry I) → Prop} {cell : Cell} {text : String}

omit [Loader L I]

theorem gives_supplyInput_rejected (hp : c.phase ≠ .awaitingInput) (now : Instant) :
    (supplyInput now text : Drive I L P (Except Error Unit)).Gives c post ↔
      post (.error (.notAllowed (.supplyInput text) c.phase)) c
        [.noted (.inputRejected (.notAllowed (.supplyInput text) c.phase))] := by
  simp [supplyInput, hp]

theorem gives_supplyInput_proceed (hp : c.phase = .awaitingInput) (hg : c.pending = some cell) (hl : c.live = some inst)
    (ht : Interpreter.put inst.machine cell text = some (.proceed, machine)) (now : Instant) :
    (supplyInput now text : Drive I L P (Except Error Unit)).Gives c post ↔
      post (.ok ()) (((c.advanced inst machine).resumed now).hear (c.change .running))
        (.called inst.serial inst.machine (.put cell text (some .proceed)) :: c.change .running) := by
  have hg' : c.gate.pending = some cell := hg
  simp [supplyInput, hp, hl, Gate.supply, hg', ht, follow, gives_goTo, change]
  rfl

theorem gives_supplyInput_halt (hp : c.phase = .awaitingInput) (hg : c.pending = some cell) (hl : c.live = some inst)
    (he : c.errorShown = false) {why : Halt}
    (ht : Interpreter.put inst.machine cell text = some (.halt why, machine)) (now : Instant) :
    (supplyInput now text : Drive I L P (Except Error Unit)).Gives c post ↔
      post (.ok ()) (((c.advanced inst machine).halted why).hear (c.farewell why))
        (.called inst.serial inst.machine (.put cell text (some (.halt why))) :: c.farewell why) := by
  have hg' : c.gate.pending = some cell := hg
  simp only [supplyInput, gives_bind, gives_read]
  rw [if_neg (by simp [hp])]
  simp [hl, Gate.supply, hg', ht]
  rw [gives_halt (by simp [hp, Phase.hasSession]) (by exact he)]
  cases why with
  | completion => rfl
  | fault fault => cases fault <;> rfl

end

/-! ## Operations are sequences of moves -/

variable {now : Instant} (given : Option String)

theorem pause_moves (hq : c.phase ≠ .steppingOnce) :
    (pause : Drive I L P Unit).Gives c fun _ d j => Moves now given c j d ∧ d.phase ≠ .steppingOnce := by
  simp only [pause, gives_bind, gives_read]
  split
  case h_1 hp =>
    simp only [gives_bind, gives_update, gives_goTo]
    rw [if_neg (by simp [hp])]
    exact ⟨(Move.pause (Or.inl hp)).moves, by simp⟩
  case h_2 hp => simpa using ⟨Moves.refl c, hq⟩
  case h_3 => simpa using ⟨(Move.remark c _ rfl).moves, hq⟩

theorem resume_moves (h : Steady c) (hq : c.phase ≠ .steppingOnce) :
    (resume now : Drive I L P Unit).Gives c fun _ d j => Moves now given c j d ∧ d.phase ≠ .steppingOnce := by
  simp only [resume, gives_bind, gives_read, gives_ite]
  split
  case isTrue hp =>
    have hresume : Move now given c _ _ := .resume hp
    have hclosed : c.resumed now = { c with phase := .running, timer := c.timer.start now } := by
      rw [resumed, ← h.gate_eq (by rw [hp]; decide)]
    rw [hclosed] at hresume
    simp only [gives_arm, gives_goTo]
    rw [if_neg (by simp [hp])]
    exact ⟨hresume.moves, by simp⟩
  case isFalse hp => simpa using ⟨(Move.remark c _ rfl).moves, hq⟩

theorem setDelay_moves (hq : c.phase ≠ .steppingOnce) (millis : UInt64) :
    (setDelay now millis : Drive I L P (Except Error Unit)).Gives c fun _ d j =>
      Moves now given c j d ∧ d.phase ≠ .steppingOnce := by
  unfold setDelay
  split
  case h_1 e he => simpa using ⟨(Move.remark c (.delayRejected e) rfl).moves, hq⟩
  case h_2 delay he =>
    simp only [gives_bind, gives_update, gives_read, gives_note, gives_pure, Timer.setDelay_isActive]
    exact ⟨(Move.setDelay c delay).moves, hq⟩

/-! ## Starts, steps and ends that may break down -/

/-- a start gets past the check and begins a session: `j` are the entries of the end of the session before it, which leaves
`d`, and `machine` is the new interpreter at its origin -/
structure Starts (c : Controller I L P) (j : List (Entry I)) (d : Controller I L P) (machine : I) : Prop where
  check : Interpreter.check c.built.machine = some .accepted
  cleared : Cleared c.loaded j d
  reset : Interpreter.reset c.built.machine = some machine

/-- a start breaks down before its session has begun -/
def StartBreaks (c : Controller I L P) : Prop :=
  Interpreter.check c.built.machine = none ∨
    Interpreter.check c.built.machine = some .accepted ∧ ((begin c.built : Drive I L P Unit) c.loaded).value = none

omit [Loader L I] in
theorem stop_breaks (hp : c.phase.hasSession = true ∨ c.phase = .faulted) (hl : c.live = some inst)
    (hr : Interpreter.reset inst.machine = none) : ((stop : Drive I L P Unit) c).value = none := by
  cases hq : c.phase <;> simp [hq, Phase.hasSession] at hp
  all_goals simp [stop, resetInstance, bind_apply, hq, hl, hr]

omit [Loader L I] in
theorem begin_breaks_old (hp : c.phase.hasSession = true) (hl : c.live = some inst)
    (hr : Interpreter.reset inst.machine = none) (fresh : Instance I) :
    ((begin fresh : Drive I L P Unit) c).value = none := by
  simp [begin, bind_apply, hp, stop_breaks (Or.inl hp) hl hr]

omit [Loader L I] in
theorem begin_breaks_new (hr : Interpreter.reset inst.machine = none) :
    ((begin inst : Drive I L P Unit) c).value = none := by
  simp [begin, resetInstance, bind_apply, Action.ite_apply, hr]
  split
  · cases ((stop : Drive I L P Unit) c).value <;> simp
  · simp

omit [Loader L I] in
theorem executeStep_breaks (hl : c.live = some inst) (hn : (Interpreter.next inst.machine c.optimize).ending = none) :
    ((executeStep now : Drive I L P Outcome) c).value = none := by
  simp [executeStep, bind_apply, hl, hn]

theorem prepare_breaks (h : Interpreter.check c.built.machine = none) :
    ((prepare : Drive I L P (Except Error (Instance I))) c).value = none := by
  simp only [built] at h
  simp [prepare, bind_apply, h]

theorem prepare_accepted (h : Interpreter.check c.built.machine = some .accepted) :
    (prepare : Drive I L P (Except Error (Instance I))) c = ⟨some (.ok c.built), c.loaded, c.loadEntries .accepted⟩ := by
  simp only [built] at h
  simp [prepare, bind_apply, h, loaded, loadEntries, built]

theorem run_breaks (h : StartBreaks c) : ((run now : Drive I L P (Except Error Unit)) c).value = none := by
  rcases h with hc | ⟨hc, hb⟩
  · simp [run, bind_apply, prepare_breaks hc]
  · simp [run, bind_apply, prepare_accepted hc, hb]

theorem firstStep_breaks (h : StartBreaks c) : ((firstStep now : Drive I L P (Except Error Outcome)) c).value = none := by
  rcases h with hc | ⟨hc, hb⟩
  · simp [firstStep, bind_apply, prepare_breaks hc]
  · simp [firstStep, bind_apply, prepare_accepted hc, hb]

theorem start_breaks {op : Operation} (hop : op = .run ∨ op = .firstStep) (h : StartBreaks c) :
    ((perform now op : Drive I L P Reply) c).value = none := by
  obtain rfl | rfl := hop
  · rw [perform, map_apply, run_breaks h, Option.map_none]
  · rw [perform, map_apply, firstStep_breaks h, Option.map_none]

/-- a start is refused, begins a session, or breaks down before -/
theorem Steady.start_cases (h : Steady c) :
    (∃ message, Interpreter.check c.built.machine = some (.rejected message)) ∨ (∃ j d machine, Starts c j d machine) ∨
      StartBreaks c := by
  cases hc : Interpreter.check c.built.machine with
  | none => exact Or.inr (Or.inr (Or.inl hc))
  | some answer =>
    cases answer with
    | rejected message => exact Or.inl ⟨message, rfl⟩
    | accepted =>
      refine Or.inr ?_
      cases hr : Interpreter.reset c.built.machine with
      | none => exact Or.inr (Or.inr ⟨hc, begin_breaks_new hr⟩)
      | some machine =>
        cases hp : c.phase.hasSession with
        | false => exact Or.inl ⟨[], c.loaded, machine, hc, .empty hp, hr⟩
        | true =>
          obtain ⟨inst, hl⟩ := h.exists_live (Or.inl hp)
          cases ho : Interpreter.reset inst.machine with
          | none => exact Or.inr (Or.inr ⟨hc, begin_breaks_old (c := c.loaded) hp hl ho _⟩)
          | some old => exact Or.inl ⟨_, _, machine, hc, .stopped hp hl ho, hr⟩

/-! ## What operations yield -/

omit [Loader L I] in
theorem executeStep_cases (now : Instant) (h : Steady c) (hp : c.phase.canStep = true) :
    (∃ inst hooks verdict machine, c.live = some inst ∧
      Interpreter.next inst.machine c.optimize = ⟨hooks, some (verdict, machine)⟩) ∨
      ((executeStep now : Drive I L P Outcome) c).value = none := by
  obtain ⟨inst, hl⟩ := h.exists_live (Or.inl (Phase.hasSession_of_canStep hp))
  cases hend : (Interpreter.next inst.machine c.optimize).ending with
  | none => exact Or.inr (executeStep_breaks hl hend)
  | some ending => exact Or.inl ⟨inst, _, ending.1, ending.2, hl, by rw [← hend]⟩

theorem executeStep_yields (h : Steady c) (hp : c.phase.canStep = true) :
    (executeStep now : Drive I L P Outcome).Yields c fun _ d j =>
      Moves now given c j d ∧ (d.phase = c.phase ∨ d.phase.canStep = false) := by
  rcases executeStep_cases now h hp with ⟨inst, hooks, verdict, machine, hl, hn⟩ | hbroken
  · refine ((gives_executeStep_end h hp hl hn now).imp ?_).yields
    intro _ d j hend
    cases hend with
    | halt why => exact ⟨(Move.halt hp hl hn).moves, Or.inr (by cases why <;> rfl)⟩
    | proceed silent => exact ⟨(Move.proceed hp hl hn silent).moves, Or.inl rfl⟩
    | ask asked => exact ⟨(Move.ask hp hl hn asked).moves, Or.inr rfl⟩
  · exact yields_of_none hbroken

/-- the step of a session that is not in its first one -/
theorem executeStep_settled (h : Steady c) (hp : c.phase = .running ∨ c.phase = .paused) :
    (executeStep now : Drive I L P Outcome).Yields c fun _ d j => Moves now given c j d ∧ d.phase ≠ .steppingOnce := by
  refine (executeStep_yields given h (by obtain hp | hp := hp <;> rw [hp] <;> rfl)).imp ?_
  intro _ d j hmoves
  refine ⟨hmoves.1, ?_⟩
  intro hd
  obtain hp | hp := hp <;> simp [hd, hp, Phase.canStep] at hmoves

theorem run_yields (h : Steady c) (hq : c.phase ≠ .steppingOnce) :
    (run now : Drive I L P (Except Error Unit)).Yields c fun _ d j => Moves now given c j d ∧ d.phase ≠ .steppingOnce := by
  rcases h.start_cases with ⟨message, hc⟩ | ⟨j, d, machine, hs⟩ | hbroken
  · refine Gives.yields ?_
    rw [gives_run_rejected hc]
    exact ⟨(Move.refuse hc).moves, hq⟩
  · refine Gives.yields ?_
    rw [gives_run_accepted hs.check hs.cleared hs.reset]
    exact ⟨(Move.start hs.check hs.cleared hs.reset (Or.inl rfl)).moves, by simp [started]⟩
  · exact yields_of_none (run_breaks hbroken)

/-- a session that has begun with a first step enters the phase of that -/
theorem Starts.enters {d : Controller I L P} {j : List (Entry I)} {machine : I} (hs : Starts c j d machine)
    (now : Instant) :
    (goTo .steppingOnce : Drive I L P Unit) ((d.begun { c.built with machine }).hear (j ++ d.beginning c.built)) =
      ⟨some (), (d.started now { c.built with machine } .steppingOnce).hear (c.startEntries d j .steppingOnce),
        (d.begun c.built).change .steppingOnce⟩ := by
  have hphase : ((d.begun { c.built with machine }).hear (j ++ d.beginning c.built)).phase ≠ .steppingOnce :=
    hs.cleared.phase_ne rfl
  rw [goTo_apply, if_neg hphase, hear_startEntries]
  rfl

/-- the first step of a session that has begun -/
theorem yields_firstStep_started {post : Except Error Outcome → Controller I L P → List (Entry I) → Prop}
    {d : Controller I L P} {j : List (Entry I)} {machine : I} (hs : Starts c j d machine) :
    Yields (firstStep now : Drive I L P (Except Error Outcome)) c post ↔
      Yields (executeStep now : Drive I L P Outcome)
        ((d.started now { c.built with machine } .steppingOnce).hear (c.startEntries d j .steppingOnce))
        fun outcome e k =>
          if e.phase = .steppingOnce then
            post (.ok outcome) ({ e with phase := .paused }.hear (e.change .paused))
              (c.startEntries d j .steppingOnce ++ (k ++ e.change .paused))
          else post (.ok outcome) e (c.startEntries d j .steppingOnce ++ k) := by
  rw [yields_iff_not_gives, gives_firstStep_accepted hs.check hs.cleared hs.reset, yields_iff_not_gives]
  simp only [apply_ite Not]

theorem firstStep_yields (h : Steady c) (hq : c.phase ≠ .steppingOnce) :
    Yields (firstStep now : Drive I L P (Except Error Outcome)) c fun _ d j =>
      Moves now given c j d ∧ d.phase ≠ .steppingOnce := by
  rcases h.start_cases with ⟨message, hc⟩ | ⟨j, d, machine, hs⟩ | hbroken
  · refine Gives.yields ?_
    rw [gives_firstStep_rejected hc]
    exact ⟨(Move.refuse hc).moves, hq⟩
  · have hstart : Move now given c _ _ := .start hs.check hs.cleared hs.reset (Or.inr rfl)
    rw [yields_firstStep_started hs]
    refine (executeStep_yields given ((hstart.steady h).hear _) rfl).imp ?_
    intro _ e k hmoves
    have hsteady := hmoves.1.steady ((hstart.steady h).hear _)
    split
    case isTrue hp =>
      -- the timer is off already, so pausing leaves it as it is
      have hpause : Move now given e _ _ := .pause (Or.inr hp)
      rw [hsteady.stop_eq (by rw [hp]; decide)] at hpause
      exact ⟨hstart.moves.trans (hmoves.1.trans hpause.moves), by simp⟩
    case isFalse hp => exact ⟨hstart.moves.trans hmoves.1, hp⟩
  · exact yields_of_none (firstStep_breaks hbroken)

omit [Loader L I] in
theorem step_paused (hp : c.phase = .paused) :
    (step now : Drive I L P (Option Outcome)) c = (some <$> executeStep now : Drive I L P (Option Outcome)) c := by
  simp [step, bind_apply, hp]

omit [Loader L I] in
theorem step_ignored (hp : c.phase ≠ .paused) :
    (step now : Drive I L P (Option Outcome)) c = ⟨some none, c, [.noted (.ignored .step c.phase)]⟩ := by
  simp [step, bind_apply, map_apply, hp]

omit [Loader L I] in
theorem tick_running (hp : c.phase = .running) :
    (tick now : Drive I L P (Option Outcome)) c = (some <$> executeStep now : Drive I L P (Option Outcome)) c := by
  simp [tick, bind_apply, hp]

omit [Loader L I] in
theorem tick_dropped (hp : c.phase ≠ .running) :
    (tick now : Drive I L P (Option Outcome)) c = ⟨some none, c, [.noted (.tickDropped c.phase)]⟩ := by
  simp [tick, bind_apply, map_apply, hp]

theorem step_yields (h : Steady c) (hq : c.phase ≠ .steppingOnce) :
    Yields (step now : Drive I L P (Option Outcome)) c fun _ d j => Moves now given c j d ∧ d.phase ≠ .steppingOnce := by
  by_cases hp : c.phase = .paused
  · rw [yields_congr (step_paused hp), yields_map]
    exact executeStep_settled given h (Or.inr hp)
  · exact yields_of_eq (step_ignored hp) ⟨(Move.remark c _ rfl).moves, hq⟩

theorem tick_yields (h : Steady c) (hq : c.phase ≠ .steppingOnce) :
    Yields (tick now : Drive I L P (Option Outcome)) c fun _ d j => Moves now given c j d ∧ d.phase ≠ .steppingOnce := by
  by_cases hp : c.phase = .running
  · rw [yields_congr (tick_running hp), yields_map]
    exact executeStep_settled given h (Or.inl hp)
  · exact yields_of_eq (tick_dropped hp) ⟨(Move.remark c _ rfl).moves, hq⟩

omit [Loader L I] in
/-- a stop finds nothing to stop, or resets the interpreter, or breaks down over that -/
theorem stop_cases (h : Steady c) : (c.phase = .idle ∨ c.phase = .stopped) ∨
    (∃ inst machine, (c.phase.hasSession = true ∨ c.phase = .faulted) ∧ c.live = some inst ∧
      Interpreter.reset inst.machine = some machine) ∨
      ((stop : Drive I L P Unit) c).value = none := by
  by_cases hv : c.phase = .idle ∨ c.phase = .stopped
  · exact Or.inl hv
  · have hp : c.phase.hasSession = true ∨ c.phase = .faulted := by
      cases hc : c.phase <;> simp_all [Phase.hasSession]
    obtain ⟨inst, hl⟩ := h.exists_live hp
    cases hr : Interpreter.reset inst.machine with
    | none => exact Or.inr (Or.inr (stop_breaks hp hl hr))
    | some machine => exact Or.inr (Or.inl ⟨inst, machine, hp, hl, hr⟩)

theorem stop_yields (h : Steady c) (hq : c.phase ≠ .steppingOnce) :
    Yields (stop : Drive I L P Unit) c fun _ d j => Moves now given c j d ∧ d.phase ≠ .steppingOnce := by
  rcases stop_cases h with hv | ⟨inst, machine, hp, hl, hr⟩ | hbroken
  · refine Gives.yields ?_
    rw [gives_stop_vacant hv]
    exact ⟨(Move.remark c _ rfl).moves, hq⟩
  · refine Gives.yields ?_
    rw [gives_stop hp hl hr]
    obtain hp | hp := hp
    · have ht : c.stopTarget = .stopped := if_neg (by rintro hf; simp [hf, Phase.hasSession] at hp)
      rw [ht]
      exact ⟨(Move.stop hp (.stopped hp hl hr)).moves, by simp [ended]⟩
    · have ht : c.stopTarget = .idle := if_pos hp
      rw [ht]
      exact ⟨(Move.rearm hp hl hr).moves, by simp [ended]⟩
  · exact yields_of_none hbroken

omit [Loader L I] in
theorem supplyInput_breaks {cell : Cell} {text : String} (hp : c.phase = .awaitingInput) (hg : c.pending = some cell)
    (hl : c.live = some inst) (ht : Interpreter.put inst.machine cell text = none) :
    ((supplyInput now text : Drive I L P (Except Error Unit)) c).value = none := by
  have hg' : c.gate.pending = some cell := hg
  simp [supplyInput, bind_apply, hp, hl, Gate.supply, hg', ht]

omit [Loader L I] in
/-- an input is refused, or the interpreter answers, or it breaks down -/
theorem supplyInput_cases (now : Instant) (text : String) (h : Steady c) : c.phase ≠ .awaitingInput ∨
    (c.phase = .awaitingInput ∧ ∃ cell inst verdict machine, c.pending = some cell ∧ c.live = some inst ∧
      Interpreter.put inst.machine cell text = some (verdict, machine)) ∨
      ((supplyInput now text : Drive I L P (Except Error Unit)) c).value = none := by
  by_cases hp : c.phase = .awaitingInput
  · obtain ⟨inst, hl⟩ := h.exists_live (Or.inl (by rw [hp]; rfl))
    obtain ⟨cell, hg⟩ := Option.isSome_iff_exists.1 (h.pending.2 hp)
    cases ht : Interpreter.put inst.machine cell text with
    | none => exact Or.inr (Or.inr (supplyInput_breaks hp hg hl ht))
    | some answer => exact Or.inr (Or.inl ⟨hp, cell, inst, answer.1, answer.2, hg, hl, ht⟩)
  · exact Or.inl hp

theorem supplyInput_yields {given : Option String} {text : String} (h : Steady c) (hq : c.phase ≠ .steppingOnce)
    (hh : given = some text) :
    Yields (supplyInput now text : Drive I L P (Except Error Unit)) c fun _ d j =>
      Moves now given c j d ∧ d.phase ≠ .steppingOnce := by
  rcases supplyInput_cases now text h with hp | ⟨hp, cell, inst, verdict, machine, hg, hl, ht⟩ | hbroken
  · refine Gives.yields ?_
    rw [gives_supplyInput_rejected hp]
    exact ⟨(Move.remark c _ rfl).moves, hq⟩
  · refine Gives.yields ?_
    cases verdict with
    | proceed =>
      rw [gives_supplyInput_proceed hp hg hl ht]
      exact ⟨(Move.supply hp hh hg hl ht).moves, by simp [resumed]⟩
    | halt why =>
      rw [gives_supplyInput_halt hp hg hl (h.errorShown (by rw [hp]; rfl)) ht]
      exact ⟨(Move.supplyHalt hp hh hg hl ht).moves, by cases why <;> simp [halted, Halt.phase]⟩
  · exact yields_of_none hbroken

/-- a dispatch does what the operation of its intent does, and passes its reply on -/
theorem dispatch_eq (now : Instant) (intent : Intent) :
    (dispatch now intent : Drive I L P (Except Error Unit)) = (do
      let c ← Action.read
      note [.dispatching intent c.phase]
      Reply.toResult <$> perform now intent.operation) := by
  cases intent with
  | firstStep =>
    simp only [dispatch, perform, Intent.operation, map_eq_pure_bind, bind_assoc, pure_bind]
    refine bind_congr fun c => bind_congr fun _ => bind_congr fun result => ?_
    cases result <;> rfl
  | _ => simp [dispatch, perform, Intent.operation, Reply.toResult]

theorem dispatch_apply (now : Instant) (intent : Intent) (c : Controller I L P) :
    (dispatch now intent : Drive I L P (Except Error Unit)) c =
      ⟨((perform now intent.operation : Drive I L P Reply) c).value.map Reply.toResult,
        ((perform now intent.operation : Drive I L P Reply) c).state,
        .noted (.dispatching intent c.phase) :: ((perform now intent.operation : Drive I L P Reply) c).journal⟩ := by
  rw [dispatch_eq]
  simp [bind_apply, map_apply]

theorem gives_dispatch {post : Reply → Controller I L P → List (Entry I) → Prop} (intent : Intent) :
    Gives (perform now (.dispatch intent) : Drive I L P Reply) c post ↔
      Gives (perform now intent.operation : Drive I L P Reply) c fun reply d j =>
        post (.result reply.toResult) d (.noted (.dispatching intent c.phase) :: j) := by
  rw [perform, gives_map, Gives, dispatch_apply]
  simp only [Option.map_eq_some_iff]
  constructor
  · rintro ⟨_, ⟨reply, hv, rfl⟩, hp⟩
    exact ⟨reply, hv, hp⟩
  · rintro ⟨reply, hv, hp⟩
    exact ⟨_, ⟨reply, hv, rfl⟩, hp⟩

theorem yields_dispatch {post : Reply → Controller I L P → List (Entry I) → Prop} (intent : Intent) :
    Yields (perform now (.dispatch intent) : Drive I L P Reply) c post ↔
      Yields (perform now intent.operation : Drive I L P Reply) c fun reply d j =>
        post (.result reply.toResult) d (.noted (.dispatching intent c.phase) :: j) := by
  rw [yields_iff_not_gives, gives_dispatch, yields_iff_not_gives]

/-- what the operation of an intent did is a sequence of moves -/
theorem intent_yields (h : Steady c) (hq : c.phase ≠ .steppingOnce) (intent : Intent) :
    Yields (perform now intent.operation : Drive I L P Reply) c fun _ d j =>
      Moves now (Operation.dispatch intent).input? c j d ∧ d.phase ≠ .steppingOnce := by
  cases intent with
  | load text =>
    refine Gives.yields ?_
    simp only [Intent.operation, perform, load, gives_bind, gives_update, gives_pure]
    exact ⟨(Move.load c text).moves, hq⟩
  | setOptimize on =>
    refine Gives.yields ?_
    simp only [Intent.operation, perform, setOptimize, gives_bind, gives_update, gives_pure]
    exact ⟨(Move.setOptimize c on).moves, hq⟩
  | run => exact (yields_map _ _).2 (run_yields _ h hq)
  | firstStep => exact (yields_map _ _).2 (firstStep_yields _ h hq)
  | step => exact (yields_map _ _).2 (step_yields _ h hq)
  | pause =>
    refine Gives.yields ?_
    simp only [Intent.operation, perform, gives_bind, gives_pure, List.append_nil]
    exact pause_moves _ hq
  | resume =>
    refine Gives.yields ?_
    simp only [Intent.operation, perform, gives_bind, gives_pure, List.append_nil]
    exact resume_moves _ h hq
  | stop => exact (yields_map _ _).2 (stop_yields _ h hq)
  | supplyInput text => exact (yields_map _ _).2 (supplyInput_yields h hq rfl)
  | setDelay millis => exact ((gives_map _ _).2 (setDelay_moves _ hq millis)).yields

/-- **What an operation did is a sequence of moves.** Where an operation on a steady controller that is not in the middle of
a first step returns, what it did is a sequence of moves, and it does not leave the controller in the middle of a first
step. -/
theorem perform_yields (h : Steady c) (hq : c.phase ≠ .steppingOnce) (op : Operation) :
    Yields (perform now op : Drive I L P Reply) c fun _ d j => Moves now op.input? c j d ∧ d.phase ≠ .steppingOnce := by
  rcases op.kinds with rfl | ⟨intent, rfl⟩ | ⟨intent, rfl⟩
  · exact (yields_map _ _).2 (tick_yields _ h hq)
  · have hinput : intent.operation.input? = (Operation.dispatch intent).input? := by cases intent <;> rfl
    rw [hinput]
    exact intent_yields h hq intent
  · rw [yields_dispatch]
    refine (intent_yields h hq intent).imp ?_
    intro _ d j hm
    exact ⟨(Move.remark c _ rfl).moves.trans hm.1, hm.2⟩

/-! ## Where no call breaks down -/

variable [SoundInterpreter I]

omit [Presenter P] in
theorem exists_reset (inst : Instance I) : ∃ machine, Interpreter.reset inst.machine = some machine :=
  Option.isSome_iff_exists.1 (SoundInterpreter.reset_isSome inst.machine)

omit [Presenter P] [Loader L I] in
theorem Steady.exists_cleared (h : Steady c) : ∃ j d, Cleared c j d := by
  cases hp : c.phase.hasSession with
  | false => exact ⟨[], c, .empty hp⟩
  | true =>
    obtain ⟨inst, hl⟩ := h.exists_live (Or.inl hp)
    obtain ⟨machine, hr⟩ := exists_reset inst
    exact ⟨_, _, .stopped hp hl hr⟩

theorem executeStep_moves (h : Steady c) (hp : c.phase.canStep = true) :
    (executeStep now : Drive I L P Outcome).Gives c fun _ d j =>
      Moves now given c j d ∧ (d.phase = c.phase ∨ d.phase.canStep = false) :=
  (executeStep_yields given h hp).gives ((oblivious_executeStep now).returns c)

/-- **Operations are sequences of moves.** An operation on a steady controller that is not in the middle of a first step
returns, what it did is a sequence of moves, and it does not leave the controller in the middle of a first step. -/
theorem perform_moves (h : Steady c) (hq : c.phase ≠ .steppingOnce) (op : Operation) :
    (perform now op : Drive I L P Reply).Gives c fun _ d j => Moves now op.input? c j d ∧ d.phase ≠ .steppingOnce :=
  (perform_yields h hq op).gives ((oblivious_perform now op).returns c)

end StepControl.Controller

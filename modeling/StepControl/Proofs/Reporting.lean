/-
One step, and all that is reported of it.

An operation takes a step (`TakesStep`) when it is a tick of a running session, a step of a paused one, or the first step of
a session that it starts. What the step comes to is a table (`upshot`): by what the interpreter answers, by the first of its
requests for input, and by the bytes it wrote. It says three things:
- the outcome, which is what the caller gets;
- the phase in which the session is left;
- the message that the user is told, if any.
The presenter is told of the output and the moves of the instruction pointer before it is told of the rest (`tidings`), and
the controller keeps the cell that is asked for and the machine that moved on (`settled`).

The buffer of the hook calls is empty before every step and after it, whatever the steps and the sessions before, so the
events of a step are its own.

Results:
- `gives_executeStep_reported`: a step whose call is answered is reported in all its parts (`Reported`).
- `reported_takesStep`: so is every tick, step and first step that takes one, after what the operation had to do before; and
  none of the three operations calls the interpreter for a step otherwise.
- `reported_takesStep_replaced`: a session that waits for input is replaced by one that takes its first step and waits in
  turn.

Premises: the call is answered, that is, the interpreter does not break down in it. Its hook calls and its answer are any.
-/
import StepControl.Proofs.Breakdowns
import StepControl.Proofs.Histories
import StepControl.Script

namespace StepControl

open StepControl.Action

def Hook.byte? : Hook → Option UInt8
  | .output byte => some byte
  | _ => none

namespace StepBuffer

theorem fill_output (hooks : List Hook) : (fill {} hooks).1.output = hooks.filterMap Hook.byte? := by
  have hevents : (fill {} hooks).1.events = kept false hooks := by rw [fill_events, List.nil_append]
  calc
    (fill {} hooks).1.output = (kept false hooks).filterMap Hook.byte? := by rw [← hevents]; rfl
    _ = hooks.filterMap Hook.byte? := kept_filterMap (fun _ => rfl) false hooks

end StepBuffer

/-! ## What a step comes to -/

/-- the user is told the message of a fault -/
def Verdict.isShown : Verdict → Bool
  | .proceed => false
  | .halt why => why.isShown

structure Upshot where
  outcome : Outcome
  phase : Phase
  pending : Option Cell := none
  /-- what the presenter is told of it -/
  told : List Notice

/-- what a step comes to that neither ends the session nor asks for input -/
def progressed (hooks : List Hook) : Outcome :=
  let written := hooks.filterMap Hook.byte?
  if written = [] then .advanced else .outputProduced written

/-- what a step comes to that is taken in the phase `p`, makes these hook calls and ends in this way -/
def upshot (p : Phase) (hooks : List Hook) : Verdict → Upshot
  | .halt .completion => { outcome := .completed, phase := .stopped, told := [.phaseChanged .stopped] }
  | .halt (.fault (.program message)) =>
    { outcome := .faulted (.program message), phase := .faulted, told := [.error message, .phaseChanged .faulted] }
  | .halt (.fault (.internal message)) =>
    { outcome := .faulted (.internal message), phase := .faulted, told := [.phaseChanged .faulted] }
  | .proceed =>
    match StepBuffer.firstRequest hooks with
    | some cell =>
      { outcome := .inputRequested cell, phase := .awaitingInput, pending := some cell
        told := [.phaseChanged .awaitingInput, .inputRequested cell] }
    | none =>
      if p = .steppingOnce then { outcome := progressed hooks, phase := .paused, told := [.phaseChanged .paused] }
      else { outcome := progressed hooks, phase := p, told := [] }

theorem progressed_not_terminal (hooks : List Hook) : (progressed hooks).isTerminal = false := by
  unfold progressed
  dsimp only
  split <;> rfl

/-- the outcome of a step is terminal where the phase is to which it leads -/
theorem upshot_isTerminal {p : Phase} (hp : p.canStep = true) (hooks : List Hook) (verdict : Verdict) :
    (upshot p hooks verdict).outcome.isTerminal = (upshot p hooks verdict).phase.isTerminal := by
  have hlive : p.isTerminal = false := by
    cases p <;> simp_all [Phase.canStep, Phase.isTerminal]
  rcases verdict with _ | _ | _ | _
  case proceed =>
    cases hr : StepBuffer.firstRequest hooks with
    | some cell => simp [upshot, hr, Outcome.isTerminal, Phase.isTerminal]
    | none =>
      by_cases hq : p = .steppingOnce
      · simp [upshot, hr, hq, progressed_not_terminal, Phase.isTerminal]
      · simp [upshot, hr, hq, progressed_not_terminal, hlive]
  all_goals rfl

def Reply.outcome? : Reply → Option Outcome
  | .started (.ok outcome) => some outcome
  | .stepped outcome => outcome
  | _ => none

namespace Controller

variable {I L P : Type} {c d : Controller I L P} {inst : Instance I} {hooks : List Hook} {verdict : Verdict}
  {machine : I} {now : Instant}

/-! ## One step -/

/-- all that the presenter is told of a step -/
def tidings (p : Phase) (hooks : List Hook) (verdict : Verdict) : List Notice :=
  hooks.filterMap progress? ++ (upshot p hooks verdict).told

/-- the controller after a step in which its interpreter moved on to `machine` -/
def settled [Presenter P] (c : Controller I L P) (inst : Instance I) (hooks : List Hook) (verdict : Verdict)
    (machine : I) : Controller I L P :=
  let u := upshot c.phase hooks verdict
  { c with
    phase := u.phase
    timer := if u.phase = .running then c.timer else c.timer.stop
    gate := ⟨u.pending⟩
    live := some { inst with machine }
    errorShown := verdict.isShown
    buffer := {}
    presenter := (tidings c.phase hooks verdict).foldl Presenter.accept c.presenter }

/-- a step of `c` with these hook calls is reported in all its parts by the outcome, the controller it leaves and what was
done -/
structure Reported [Presenter P] (c : Controller I L P) (inst : Instance I) (hooks : List Hook) (verdict : Verdict)
    (machine : I) (outcome : Outcome) (d : Controller I L P) (j : List (Entry I)) : Prop where
  /-- the events of the step are the hook calls in order, without the requests that come after another -/
  events : (c.buffer.fill hooks).1.events = StepBuffer.kept false hooks
  /-- the interpreter is called once, and then the presenter is told -/
  done : deeds j = .called inst.serial inst.machine (.next c.optimize hooks (some verdict)) ::
    (tidings c.phase hooks verdict).map .shown
  outcome : outcome = (upshot c.phase hooks verdict).outcome
  left : d = c.settled inst hooks verdict machine
  /-- the outcome ends the session where the phase does -/
  terminal : (upshot c.phase hooks verdict).outcome.isTerminal = d.phase.isTerminal

@[simp] theorem deeds_stepEntries (inst : Instance I) (hooks : List Hook) (verdict : Verdict) :
    deeds (c.stepEntries inst hooks verdict) =
      .called inst.serial inst.machine (.next c.optimize hooks (some verdict)) :: (hooks.filterMap progress?).map .shown := by
  simp [stepEntries, deeds, Entry.note?, List.filter_map, Function.comp_def]

variable [Presenter P]

/-- what a step came to is reported where the deeds are those of the step and the announcements -/
theorem reported_of_done (hp : c.phase.canStep = true) (hb : c.buffer = {}) {outcome : Outcome} {told : List (Entry I)}
    (houtcome : outcome = (upshot c.phase hooks verdict).outcome)
    (htold : deeds told = (upshot c.phase hooks verdict).told.map .shown)
    (hleft : d = c.settled inst hooks verdict machine) :
    Reported c inst hooks verdict machine outcome d (c.stepEntries inst hooks verdict ++ told) where
  events := by rw [hb, StepBuffer.fill_events, List.nil_append]
  done := by rw [deeds_append, deeds_stepEntries, htold, tidings, List.map_append, List.cons_append]
  outcome := houtcome
  left := hleft
  terminal := by rw [hleft]; exact upshot_isTerminal hp hooks verdict

theorem reported_halt (h : Steady c) (hp : c.phase.canStep = true) (why : Halt) :
    Reported c inst hooks (.halt why) machine (Halt.outcome why)
      (((c.advanced inst machine).halted why).hear (c.stepEntries inst hooks (.halt why) ++ c.farewell why))
      (c.stepEntries inst hooks (.halt why) ++ c.farewell why) := by
  have hshown : c.errorShown = false := h.errorShown (Phase.hasSession_of_canStep hp)
  rcases why with _ | ⟨message⟩ | ⟨message⟩
  all_goals refine reported_of_done hp h.buffer rfl rfl ?_
  all_goals
    simp [settled, tidings, upshot, hear, advanced, halted, farewell, change, Halt.phase, Verdict.isShown, Halt.isShown,
      h.buffer, hshown]

theorem reported_ask (h : Steady c) (hp : c.phase.canStep = true) {cell : Cell}
    (hr : StepBuffer.firstRequest hooks = some cell) :
    Reported c inst hooks .proceed machine (.inputRequested cell)
      (((c.advanced inst machine).asking cell).hear (c.stepEntries inst hooks .proceed ++ c.question cell))
      (c.stepEntries inst hooks .proceed ++ c.question cell) := by
  have hshown : c.errorShown = false := h.errorShown (Phase.hasSession_of_canStep hp)
  have hupshot : upshot c.phase hooks .proceed =
      { outcome := .inputRequested cell, phase := .awaitingInput, pending := some cell
        told := [.phaseChanged .awaitingInput, .inputRequested cell] } := by simp [upshot, hr]
  refine reported_of_done hp h.buffer (by rw [hupshot]) (by rw [hupshot]; rfl) ?_
  simp [settled, tidings, hupshot, hear, advanced, asking, question, change, Verdict.isShown, h.buffer, hshown]

/-- a step that neither ends the session nor asks for input leaves it as it was -/
theorem reported_rest (h : Steady c) (hp : c.phase = .running ∨ c.phase = .paused)
    (hr : StepBuffer.firstRequest hooks = none) :
    Reported c inst hooks .proceed machine (progressed hooks)
      ((c.advanced inst machine).hear (c.stepEntries inst hooks .proceed)) (c.stepEntries inst hooks .proceed) := by
  have hcan : c.phase.canStep = true := by obtain hp | hp := hp <;> rw [hp] <;> rfl
  have hfirst : c.phase ≠ .steppingOnce := by obtain hp | hp := hp <;> rw [hp] <;> decide
  have hshown : c.errorShown = false := h.errorShown (Phase.hasSession_of_canStep hcan)
  have hgate : c.gate = {} := h.gate_eq (by obtain hp | hp := hp <;> rw [hp] <;> decide)
  have hupshot : upshot c.phase hooks .proceed = { outcome := progressed hooks, phase := c.phase, told := [] } := by
    simp [upshot, hr, hfirst]
  have htimer : (if c.phase = .running then c.timer else c.timer.stop) = c.timer := by
    split
    case isTrue => rfl
    case isFalse hoff => exact h.stop_eq hoff
  rw [← List.append_nil (c.stepEntries inst hooks .proceed)]
  refine reported_of_done hcan h.buffer (by rw [hupshot]) (by rw [hupshot]; rfl) ?_
  simp [settled, tidings, hupshot, htimer, hear, advanced, Verdict.isShown, h.buffer, hshown, hgate]

/-- a first step that neither ends the session nor asks for input pauses it -/
theorem reported_first (h : Steady c) (hp : c.phase = .steppingOnce) (hr : StepBuffer.firstRequest hooks = none) :
    Reported c inst hooks .proceed machine (progressed hooks)
      ({ (c.advanced inst machine).hear (c.stepEntries inst hooks .proceed) with phase := .paused }.hear (c.change .paused))
      (c.stepEntries inst hooks .proceed ++ c.change .paused) := by
  have hcan : c.phase.canStep = true := by rw [hp]; rfl
  have hshown : c.errorShown = false := h.errorShown (Phase.hasSession_of_canStep hcan)
  have hgate : c.gate = {} := h.gate_eq (by rw [hp]; decide)
  have hupshot : upshot .steppingOnce hooks .proceed =
      { outcome := progressed hooks, phase := .paused, told := [.phaseChanged .paused] } := by
    simp [upshot, hr]
  refine reported_of_done hcan h.buffer (by rw [hp, hupshot]) (by rw [hp, hupshot]; rfl) ?_
  simp [settled, tidings, hupshot, h.stop_eq, hp, hear, advanced, change, Verdict.isShown, h.buffer, hshown, hgate]

/-! ## The operations that take a step -/

variable [Interpreter I]

/-- a step of a running or paused session is reported -/
theorem gives_executeStep_reported (h : Steady c) (hp : c.phase = .running ∨ c.phase = .paused) (hl : c.live = some inst)
    (hn : Interpreter.next inst.machine c.optimize = ⟨hooks, some (verdict, machine)⟩) :
    (executeStep now : Drive I L P Outcome).Gives c (Reported c inst hooks verdict machine) := by
  have hcan : c.phase.canStep = true := by obtain hp | hp := hp <;> rw [hp] <;> rfl
  refine (gives_executeStep_end h hcan hl hn now).imp ?_
  intro outcome d j hend
  cases hend with
  | halt why => exact reported_halt h hcan why
  | ask asked => exact reported_ask h hcan asked
  | proceed silent =>
    rw [StepBuffer.fill_output]
    exact reported_rest h hp silent

variable [Loader L I]

/-- an operation on `c` takes a step of the interpreter `inst`: `front` is what it has done before, and `d` is the controller
by then -/
inductive TakesStep (now : Instant) (c : Controller I L P) :
    Operation → List (Entry I) → Controller I L P → Instance I → Prop where
  | tick {inst : Instance I} (phase : c.phase = .running) (live : c.live = some inst) : TakesStep now c .tick [] c inst
  | step {inst : Instance I} (phase : c.phase = .paused) (live : c.live = some inst) : TakesStep now c .step [] c inst
  | firstStep {e : Controller I L P} {j : List (Entry I)} {machine : I} (starts : Starts c j e machine) :
      TakesStep now c .firstStep (c.startEntries e j .steppingOnce)
        ((e.started now { c.built with machine } .steppingOnce).hear (c.startEntries e j .steppingOnce))
        { c.built with machine }

/-- the first step of a session is reported, after what its start has to tell -/
theorem gives_firstStep_reported {e : Controller I L P} {j : List (Entry I)} {fresh : I} (h : Steady c)
    (hs : Starts c j e fresh)
    (hd : d = (e.started now { c.built with machine := fresh } .steppingOnce).hear (c.startEntries e j .steppingOnce))
    (hl : d.live = some inst)
    (hn : Interpreter.next inst.machine d.optimize = ⟨hooks, some (verdict, machine)⟩) :
    (firstStep now : Drive I L P (Except Error Outcome)).Gives c fun result u k =>
      ∃ outcome rest, k = c.startEntries e j .steppingOnce ++ rest ∧ result = .ok outcome ∧
        Reported d inst hooks verdict machine outcome u rest := by
  have hstart : Move now none c _ _ := .start hs.check hs.cleared hs.reset (Or.inr rfl)
  have hsteady : Steady d := hd ▸ (hstart.steady h).hear _
  have hp : d.phase = .steppingOnce := by rw [hd]; rfl
  have hcan : d.phase.canStep = true := by rw [hp]; rfl
  rw [gives_firstStep_accepted hs.check hs.cleared hs.reset, ← hd]
  refine (gives_executeStep_end hsteady hcan hl hn now).imp ?_
  intro outcome u k hend
  cases hend with
  | halt why =>
    rw [if_neg (by cases why <;> simp [halted, Halt.phase])]
    exact ⟨_, _, rfl, rfl, reported_halt hsteady hcan why⟩
  | ask asked =>
    rw [if_neg (by simp [asking])]
    exact ⟨_, _, rfl, rfl, reported_ask hsteady hcan asked⟩
  | proceed silent =>
    rw [StepBuffer.fill_output, if_pos (by exact hp)]
    exact ⟨_, _, rfl, rfl, reported_first hsteady hp silent⟩

/-- the journal tells of a step of an interpreter -/
def TellsOfStep (j : List (Entry I)) : Prop :=
  ∃ serial before optimize hooks answer, Entry.called serial before (.next optimize hooks answer) ∈ j

/-- a start that breaks down before its session has begun does not take a step -/
theorem firstStep_breaks_before (h : Steady c) (hb : StartBreaks c) :
    ¬ TellsOfStep ((firstStep now : Drive I L P (Except Error Outcome)) c).journal := by
  rintro ⟨serial, before, optimize, hooks, answer, hmem⟩
  rcases hb with hc | ⟨hc, hbegin⟩
  · simp only [built] at hc
    simp [firstStep, prepare, bind_apply, hc] at hmem
  · have hjournal : ((firstStep now : Drive I L P (Except Error Outcome)) c).journal =
        c.loadEntries .accepted ++ ((begin c.built : Drive I L P Unit) c.loaded).journal := by
      simp [firstStep, bind_apply, prepare_accepted hc, hbegin]
    rw [hjournal] at hmem
    rcases begin_leaves h.loaded c.built hbegin with ⟨inst, -, -, -, hj⟩ | ⟨front, d, hcleared, -, hj⟩
    · simp [hj, loadEntries] at hmem
    · cases hcleared with
      | empty vacant => simp [hj, loadEntries] at hmem
      | stopped busy live reset => simp [hj, loadEntries, teardown, change] at hmem

/-- a step is taken by these three operations where nothing else can be, and nowhere else -/
theorem takesStep_of_tells (h : Steady c) {op : Operation} (hop : op = .tick ∨ op = .step ∨ op = .firstStep)
    (htells : TellsOfStep ((perform now op : Drive I L P Reply) c).journal) :
    ∃ front d inst, TakesStep now c op front d inst := by
  obtain rfl | rfl | rfl := hop
  · by_cases hp : c.phase = .running
    · obtain ⟨inst, hl⟩ := h.exists_live (Or.inl (by rw [hp]; rfl))
      exact ⟨_, _, inst, .tick hp hl⟩
    · obtain ⟨serial, before, optimize, hooks, answer, hmem⟩ := htells
      simp [perform, map_apply, tick_dropped hp] at hmem
  · by_cases hp : c.phase = .paused
    · obtain ⟨inst, hl⟩ := h.exists_live (Or.inl (by rw [hp]; rfl))
      exact ⟨_, _, inst, .step hp hl⟩
    · obtain ⟨serial, before, optimize, hooks, answer, hmem⟩ := htells
      simp [perform, map_apply, step_ignored hp] at hmem
  · rw [perform, map_apply] at htells
    rcases h.start_cases with ⟨message, hc⟩ | ⟨j, d, machine, hs⟩ | hbroken
    · have hrefused : (firstStep now : Drive I L P (Except Error Outcome)) c =
          ⟨some (.error (.badProgram message)), c.loaded.hear (c.refusal message), c.refusal message⟩ :=
        eq_of_gives ((gives_firstStep_rejected hc now).2 ⟨rfl, rfl, rfl⟩)
      obtain ⟨serial, before, optimize, hooks, answer, hmem⟩ := htells
      simp [hrefused, refusal, loadEntries] at hmem
    · exact ⟨_, _, _, .firstStep hs⟩
    · exact absurd htells (firstStep_breaks_before h hbroken)

/-- **One step, reported exactly.** Wherever a tick, a step or a first step has the interpreter take a step, it returns, and
what the step comes to is reported in all its parts, after what the operation had to tell before; the interpreter's hook
calls and its answer are any. None of the three calls the interpreter for a step anywhere else. -/
theorem reported_takesStep {past : List Applied} (h : Reached past c) {op : Operation}
    (hop : op = .tick ∨ op = .step ∨ op = .firstStep) :
    (∀ front d inst hooks verdict machine, TakesStep now c op front d inst →
      Interpreter.next inst.machine d.optimize = ⟨hooks, some (verdict, machine)⟩ →
        Gives (perform now op : Drive I L P Reply) c fun reply u j =>
          ∃ outcome rest, j = front ++ rest ∧ reply.outcome? = some outcome ∧
            Reported d inst hooks verdict machine outcome u rest) ∧
      (TellsOfStep ((perform now op : Drive I L P Reply) c).journal → ∃ front d inst, TakesStep now c op front d inst) := by
  obtain ⟨hsteady, -⟩ := h.steady
  refine ⟨?_, takesStep_of_tells hsteady hop⟩
  intro front d inst hooks verdict machine htakes hn
  cases htakes with
  | tick hp hl =>
    rw [perform, gives_map, gives_congr (tick_running hp), gives_map]
    refine (gives_executeStep_reported hsteady (Or.inl hp) hl hn).imp ?_
    intro outcome u j hreported
    exact ⟨outcome, j, rfl, rfl, hreported⟩
  | step hp hl =>
    rw [perform, gives_map, gives_congr (step_paused hp), gives_map]
    refine (gives_executeStep_reported hsteady (Or.inr hp) hl hn).imp ?_
    intro outcome u j hreported
    exact ⟨outcome, j, rfl, rfl, hreported⟩
  | @firstStep e j fresh hs =>
    rw [perform, gives_map]
    refine (gives_firstStep_reported hsteady hs rfl rfl hn).imp ?_
    rintro result u k ⟨outcome, rest, hk, rfl, hreported⟩
    exact ⟨outcome, rest, hk, rfl, hreported⟩

/-- hook calls with a second request for input among them -/
def doublyAsked : List Hook :=
  [.output 72, .requestInput ⟨3⟩, .instruction 1, .requestInput ⟨4⟩, .output 105]

/-- a step that asks for input twice -/
def asker : Repertoire := ⟨[{ lines := [{ hooks := doublyAsked }] }]⟩

/-- a session that waits for input is replaced by one that takes its first step and waits in turn -/
theorem reported_takesStep_replaced :
    ∃ (past : List Applied) (c d : Controller Player Repertoire Channel) (front : List (Entry Player))
        (inst : Instance Player) (machine : Player),
      Reached past c ∧ c.phase = .awaitingInput ∧ TakesStep 9 c .firstStep front d inst ∧
        Interpreter.next inst.machine d.optimize = ⟨doublyAsked, some (.proceed, machine)⟩ ∧
        (Gives (perform 9 .firstStep : Drive Player Repertoire Channel Reply) c fun reply u j =>
          ∃ outcome rest, j = front ++ rest ∧ reply.outcome? = some outcome ∧
            Reported d inst doublyAsked .proceed machine outcome u rest) ∧
        (upshot d.phase doublyAsked .proceed).outcome = .inputRequested ⟨3⟩ ∧
        tidings d.phase doublyAsked .proceed =
          [.output 72, .instructionMoved 1, .output 105, .phaseChanged .awaitingInput, .inputRequested ⟨3⟩] := by
  have hrunning := (Reached.new (P := Channel) {} asker {}).perform 0 .run rfl
  have hwaiting := hrunning.perform 5 .tick rfl
  have hstarts : Starts ((perform 5 .tick : Drive Player Repertoire Channel Reply)
      ((perform 0 .run : Drive Player Repertoire Channel Reply) (ofConfig {} asker {})).state).state _ _ _ :=
    ⟨rfl, .stopped rfl rfl rfl, rfl⟩
  refine ⟨_, _, _, _, _, _, hwaiting, rfl, .firstStep hstarts, rfl, ?_, rfl, rfl⟩
  exact (reported_takesStep hwaiting (Or.inr (Or.inr rfl))).1 _ _ _ _ _ _ (.firstStep hstarts) rfl

end Controller

end StepControl

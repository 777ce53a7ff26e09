/-
What a front end offers is what the controller can do.

The controls of a phase (`Phase.controls`) and the guards of the operations are two tables that were written apart. Here
they are held against each other. Each intent has its control, one for a session that is live (`Intent.control?`) or one for
a start (`Intent.startControl?`); setting the delay has none. A request takes effect (`TakesEffect`) where the interpreter
is asked to go on or a change of phase is announced.

From the tables to the operations:
- `intent_takesEffect`: a request that has its place takes effect, by cases of the intents.
- `gives_unoffered`: one whose control is not offered leaves no trace but in the log.
- `leaves_offered`: a request breaks down only where its control is offered, over the last call that it made.
- `start_opens`: a start in a phase in which it is offered has no session to end (`Opens`).

Results:
- `offered_of_reached`: on a controller with any history, a control of a session is offered exactly where its request takes
  effect, direct or dispatched; the controls for starts are offered only where a start has no session to end; and the
  program text may be edited exactly where no session is live.
- `offered_of_reached_faulted`: a session that a fault ended, with a stop, a step and a start.

Premises: the controller was reached. The interpreter may break down.
-/
import StepControl.Proofs.Breakdowns
import StepControl.Proofs.Refusals

namespace StepControl

open StepControl.Action

/-- the control that stands for a request to a session -/
def Intent.control? : Intent → Option (Controls → Bool)
  | .step => some Controls.step
  | .pause => some Controls.pause
  | .resume => some Controls.resume
  | .stop => some Controls.stop
  | .supplyInput _ => some Controls.input
  | _ => none

/-- the control that stands for a request to start one -/
def Intent.startControl? : Intent → Option (Controls → Bool)
  | .run => some Controls.run
  | .firstStep => some Controls.firstStep
  | _ => none

/-- a control is offered where its request is not futile; a controller is not at rest in `steppingOnce`, where the two
differ -/
theorem Intent.control_eq {intent : Intent} {control : Controls → Bool} (hc : intent.control? = some control) {p : Phase}
    (hq : p ≠ .steppingOnce) : control p.controls = (intent.operation.futile? p).isNone := by
  cases intent <;> cases p <;> simp_all [Intent.control?, Intent.operation, Operation.futile?, Operation.plain] <;>
    subst hc <;> rfl

/-- starts are offered where there is no session to end -/
theorem Intent.startControl_eq {intent : Intent} {control : Controls → Bool} (hc : intent.startControl? = some control)
    (p : Phase) : control p.controls = !p.hasSession := by
  cases intent <;> simp only [Intent.startControl?, Option.some.injEq, reduceCtorEq] at hc <;> subst hc <;> cases p <;> rfl

/-- a start is one of the two -/
theorem Intent.start_cases {intent : Intent} {control : Controls → Bool} (hc : intent.startControl? = some control) :
    intent = .run ∨ intent = .firstStep := by
  cases intent <;> simp_all [Intent.startControl?]

/-- the interpreter is asked to go on, or a change of phase is announced -/
def Entry.isEffect {I : Type} : Entry I → Bool
  | .called _ _ (.next ..) | .called _ _ (.put ..) | .shown (.phaseChanged _) => true
  | _ => false

/-- it does not tell of another interpreter than this one, nor of the end of a session -/
def Entry.isOf {I : Type} (serial : Nat) : Entry I → Bool
  | .loaded n _ | .called n _ _ => n == serial
  | .noted (.sessionStopped _) => false
  | _ => true

namespace Controller

variable {I L P : Type} {c d : Controller I L P} {now : Instant} {j k : List (Entry I)} {serial : Nat}
  {inst : Instance I}

/-! ## Effects -/

def TakesEffect (j : List (Entry I)) : Prop := ∃ e ∈ j, e.isEffect = true

@[simp] theorem takesEffect_nil : ¬ TakesEffect ([] : List (Entry I)) := by simp [TakesEffect]

@[simp] theorem takesEffect_cons (e : Entry I) : TakesEffect (e :: j) ↔ e.isEffect = true ∨ TakesEffect j := by
  simp [TakesEffect]

@[simp] theorem takesEffect_append : TakesEffect (j ++ k) ↔ TakesEffect j ∨ TakesEffect k := by
  simp [TakesEffect, or_and_right, exists_or]

@[simp] theorem takesEffect_change (target : Phase) : TakesEffect (c.change target) := by
  simp [change, Entry.isEffect]

@[simp] theorem takesEffect_stepEntries (hooks : List Hook) (verdict : Verdict) :
    TakesEffect (c.stepEntries inst hooks verdict) := by
  simp [stepEntries, Entry.isEffect]

/-- nothing comes of a request that leaves no trace but in the log -/
theorem not_takesEffect_of_deeds (h : deeds j = []) : ¬ TakesEffect j := by
  rintro ⟨e, he, heffect⟩
  have hnote : ¬ e.note?.isNone = true := List.filter_eq_nil_iff.1 h e he
  cases e <;> simp [Entry.note?, Entry.isEffect] at hnote heffect

/-! ## Starts that find no session -/

/-- entries that tell of no interpreter but this one, and of no end of a session -/
def Confined (serial : Nat) (j : List (Entry I)) : Prop := ∀ e ∈ j, e.isOf serial = true

@[simp] theorem confined_nil : Confined serial ([] : List (Entry I)) := by simp [Confined]

@[simp] theorem confined_cons (e : Entry I) : Confined serial (e :: j) ↔ e.isOf serial = true ∧ Confined serial j :=
  List.forall_mem_cons

@[simp] theorem confined_append : Confined serial (j ++ k) ↔ Confined serial j ∧ Confined serial k :=
  List.forall_mem_append

@[simp] theorem confined_map {α : Type} (f : α → Entry I) (as : List α) :
    Confined serial (as.map f) ↔ ∀ a ∈ as, (f a).isOf serial = true :=
  List.forall_mem_map

@[simp] theorem confined_change (target : Phase) : Confined serial (c.change target) := by
  simp [change, Entry.isOf]

@[simp] theorem confined_farewell (why : Halt) : Confined serial (c.farewell why) := by
  rcases why with _ | ⟨message⟩ | ⟨message⟩ <;> simp [farewell, Entry.isOf]

@[simp] theorem confined_stepEntries (hooks : List Hook) (verdict : Verdict) :
    Confined inst.serial (c.stepEntries inst hooks verdict) := by
  rw [stepEntries, confined_cons, confined_append, confined_map, confined_map]
  exact ⟨by simp [Entry.isOf], fun _ _ => rfl, fun _ _ => rfl⟩

/-- a start that began a session where none was live: the session has the next number, and all that was done before the
reply was done with the interpreter built for it -/
structure Opens [Loader L I] (c : Controller I L P) (reply : Reply) (d : Controller I L P) (j : List (Entry I)) : Prop where
  result : reply.toResult = .ok ()
  session : d.session = some c.nextSession
  begun : .noted (.sessionStarted c.nextSession c.delay) ∈ j
  cleared : .shown .reset ∈ j
  confined : Confined c.built.serial j

section

variable [Interpreter I]

variable [Presenter P]

/-- a step calls the live interpreter, and keeps to it and to the session -/
theorem executeStep_confined (h : Steady c) (hp : c.phase.canStep = true) (hl : c.live = some inst) :
    (executeStep now : Drive I L P Outcome).Yields c fun _ d j => d.session = c.session ∧ Confined inst.serial j := by
  rcases executeStep_cases now h hp with ⟨inst', hooks, verdict, machine, hl', hn⟩ | hbroken
  · obtain rfl : inst = inst' := Option.some.inj (hl.symm.trans hl')
    refine ((gives_executeStep_end h hp hl hn now).imp ?_).yields
    intro _ d j hend
    cases hend with
    | halt why => exact ⟨rfl, by simp⟩
    | proceed silent => exact ⟨rfl, by simp⟩
    | ask asked => exact ⟨rfl, by simp [question, Entry.isOf]⟩
  · exact yields_of_none hbroken

/-- a step calls the live interpreter, whatever that comes to -/
theorem executeStep_takesEffect (now : Instant) (h : Steady c) (hp : c.phase.canStep = true) :
    TakesEffect ((executeStep now : Drive I L P Outcome) c).journal := by
  obtain ⟨inst, hl⟩ := h.exists_live (Or.inl (Phase.hasSession_of_canStep hp))
  rcases hn : Interpreter.next inst.machine c.optimize with ⟨hooks, ending⟩
  rcases ending with _ | ⟨verdict, machine⟩
  · rw [executeStep_journal h hl hn]
    simp [Entry.isEffect]
  · have heffect : (executeStep now : Drive I L P Outcome).Gives c fun _ _ j => TakesEffect j := by
      refine (gives_executeStep_end h hp hl hn now).imp ?_
      intro _ d j hend
      cases hend <;> simp
    obtain ⟨_, _, hjournal⟩ := heffect
    exact hjournal

/-- an input is handed to the interpreter that waits for it, whatever that comes to -/
theorem supplyInput_takesEffect (h : Steady c) (hp : c.phase = .awaitingInput) (text : String) :
    TakesEffect ((supplyInput now text : Drive I L P (Except Error Unit)) c).journal := by
  obtain ⟨inst, hl⟩ := h.exists_live (Or.inl (by rw [hp]; rfl))
  obtain ⟨cell, hg⟩ := Option.isSome_iff_exists.1 (h.pending.2 hp)
  have hg' : c.gate.pending = some cell := hg
  simp [supplyInput, bind_apply, hp, hl, Gate.supply, hg', Entry.isEffect]

end

variable [Interpreter I] [Loader L I] [Presenter P] {op : Operation} {machine : I}

/-! ## Requests to a session -/

/-- a request to a session that is not futile takes effect, if not a stop breaks down -/
theorem intent_takesEffect (now : Instant) (h : Steady c) {intent : Intent} (hc : intent.control?.isSome = true)
    (hf : intent.operation.futile? c.phase = none)
    (hreturns : intent = .stop → ((perform now intent.operation : Drive I L P Reply) c).value.isSome = true) :
    TakesEffect ((perform now intent.operation : Drive I L P Reply) c).journal := by
  cases intent with
  | step =>
    have hp : c.phase = .paused := by simpa [Intent.operation, Operation.futile?, Operation.plain] using hf
    have heffect := executeStep_takesEffect now h (by rw [hp]; rfl)
    rw [Intent.operation, perform, map_apply, step_paused hp, map_apply]
    exact heffect
  | pause =>
    have hp : c.phase = .running := by simpa [Intent.operation, Operation.futile?, Operation.plain] using hf
    simp [Intent.operation, perform, pause, bind_apply, hp, goTo_apply, Entry.isEffect]
  | resume =>
    have hp : c.phase = .paused := by simpa [Intent.operation, Operation.futile?, Operation.plain] using hf
    simp [Intent.operation, perform, resume, bind_apply, hp, arm_apply, goTo_apply, Entry.isEffect]
  | stop =>
    have hp : ¬ (c.phase = .idle ∨ c.phase = .stopped) := by
      simpa [Intent.operation, Operation.futile?, Operation.plain] using hf
    have hreturned := hreturns rfl
    rcases stop_cases h with hv | ⟨inst, machine, hlive, hl, hr⟩ | hbroken
    · exact absurd hv hp
    · have heffect : Gives (perform now .stop : Drive I L P Reply) c fun _ _ j => TakesEffect j := by
        rw [perform, gives_bind, gives_stop hlive hl hr]
        simp [teardown]
      obtain ⟨_, _, hjournal⟩ := heffect
      exact hjournal
    · rw [Intent.operation, perform, bind_apply, hbroken] at hreturned
      simp at hreturned
  | supplyInput text =>
    have hp : c.phase = .awaitingInput := by simpa [Intent.operation, Operation.futile?, Operation.plain] using hf
    rw [Intent.operation, perform, map_apply]
    exact supplyInput_takesEffect h hp text
  | _ => simp [Intent.control?] at hc

/-- a dispatch takes effect where the operation of its intent does, and returns where that returns -/
theorem dispatch_like (now : Instant) {intent : Intent} (hop : op = intent.operation ∨ op = .dispatch intent)
    (c : Controller I L P) :
    (TakesEffect ((perform now op : Drive I L P Reply) c).journal ↔
        TakesEffect ((perform now intent.operation : Drive I L P Reply) c).journal) ∧
      (((perform now op : Drive I L P Reply) c).value = none ↔
        ((perform now intent.operation : Drive I L P Reply) c).value = none) := by
  obtain rfl | rfl := hop
  · exact ⟨Iff.rfl, Iff.rfl⟩
  · rw [perform, map_apply, dispatch_apply]
    simp [Entry.isEffect]

theorem futile?_like {intent : Intent} (hop : op = intent.operation ∨ op = .dispatch intent) (p : Phase) :
    op.futile? p = intent.operation.futile? p := by
  obtain rfl | rfl := hop
  · rfl
  · exact Operation.futile?_dispatch intent p

/-- a request whose control is not offered does nothing -/
theorem gives_unoffered (now : Instant) {intent : Intent} {control : Controls → Bool} (hc : intent.control? = some control)
    (hq : c.phase ≠ .steppingOnce) (hop : op = intent.operation ∨ op = .dispatch intent)
    (hoffer : control c.phase.controls = false) :
    Gives (perform now op : Drive I L P Reply) c fun _ d j => d = c ∧ deeds j = [] := by
  rw [Intent.control_eq hc hq, Option.isNone_eq_false_iff, Option.isSome_iff_exists] at hoffer
  obtain ⟨result, hresult⟩ := hoffer
  rw [← futile?_like hop] at hresult
  exact (futile_gives hresult).imp fun _ _ _ hnothing => hnothing.2

/-- a request whose control is offered takes effect, if not a stop breaks down -/
theorem takesEffect_of_offered (h : Steady c) {intent : Intent} {control : Controls → Bool}
    (hc : intent.control? = some control) (hq : c.phase ≠ .steppingOnce)
    (hop : op = intent.operation ∨ op = .dispatch intent) (hoffer : control c.phase.controls = true)
    (hreturns : intent = .stop → ((perform now op : Drive I L P Reply) c).value.isSome = true) :
    TakesEffect ((perform now op : Drive I L P Reply) c).journal := by
  obtain ⟨heffect, hvalue⟩ := dispatch_like now hop c
  rw [Intent.control_eq hc hq, Option.isNone_iff_eq_none] at hoffer
  rw [heffect]
  refine intent_takesEffect now h (by rw [hc]; rfl) hoffer ?_
  intro hstop
  have hreturned := hreturns hstop
  rw [Option.isSome_iff_ne_none] at hreturned ⊢
  exact mt hvalue.2 hreturned

/-- a control is offered exactly where its request takes effect -/
theorem yields_offered (h : Steady c) (hq : c.phase ≠ .steppingOnce) {intent : Intent} {control : Controls → Bool}
    (hc : intent.control? = some control) (hop : op = intent.operation ∨ op = .dispatch intent) :
    Yields (perform now op : Drive I L P Reply) c fun _ _ j => control c.phase.controls = true ↔ TakesEffect j := by
  intro reply hreply
  constructor
  · intro hoffer
    exact takesEffect_of_offered h hc hq hop hoffer fun _ => by rw [hreply]; rfl
  · intro heffect
    by_contra hoffer
    obtain ⟨_, _, -, hdeeds⟩ := gives_unoffered now hc hq hop (Bool.eq_false_iff.2 hoffer)
    exact not_takesEffect_of_deeds hdeeds heffect

/-- only a request whose control is offered can break down, over the last call that it made -/
theorem leaves_offered (h : Steady c) (hq : c.phase ≠ .steppingOnce) {intent : Intent} {control : Controls → Bool}
    (hc : intent.control? = some control) (hop : op = intent.operation ∨ op = .dispatch intent) :
    (perform now op : Drive I L P Reply).Leaves c fun j =>
      control c.phase.controls = true ∧ EndsBroken j ∧ (intent = .stop ∨ TakesEffect j) := by
  intro hnone
  have hoffer : control c.phase.controls = true := by
    by_contra hoffer
    obtain ⟨reply, hreply, -⟩ := gives_unoffered now hc hq hop (Bool.eq_false_iff.2 hoffer)
    simp [hnone] at hreply
  refine ⟨hoffer, (perform_breaks h op hnone).ends, ?_⟩
  by_cases hstop : intent = .stop
  · exact Or.inl hstop
  · exact Or.inr (takesEffect_of_offered h hc hq hop hoffer fun h => absurd h hstop)

/-! ## Requests to start one -/

omit [Interpreter I] [Presenter P] in
/-- what a start does up to the phase of the new session, where it finds no session -/
theorem confined_startEntries (target : Phase) : Confined c.built.serial (c.startEntries c.loaded [] target) := by
  simp [startEntries, loadEntries, greeting, beginning, Entry.isOf, built]

omit [Interpreter I] [Presenter P] in
/-- it begins the session with the next number, and clears the displays -/
theorem mem_startEntries (target : Phase) :
    .noted (.sessionStarted c.nextSession c.delay) ∈ c.startEntries c.loaded [] target ∧
      .shown .reset ∈ c.startEntries c.loaded [] target := by
  have hsub : ∀ e ∈ c.loaded.beginning c.built, e ∈ c.startEntries c.loaded [] target := by
    intro e he
    simp [startEntries, greeting, he]
  exact ⟨hsub _ (.tail _ (.head _)), hsub _ (.tail _ (.tail _ (.head _)))⟩

/-- a start that finds no session and a program that parses opens a session -/
theorem run_opens (hc : Interpreter.check c.built.machine = some .accepted) (hp : c.phase.hasSession = false)
    (hr : Interpreter.reset c.built.machine = some machine) :
    Gives (run now : Drive I L P (Except Error Unit)) c fun result d j => Opens c (.result result) d j := by
  rw [gives_run_accepted hc (.empty (c := c.loaded) hp) hr]
  obtain ⟨hbegun, hcleared⟩ := mem_startEntries (c := c) .running
  exact ⟨rfl, rfl, hbegun, hcleared, confined_startEntries _⟩

theorem firstStep_opens (h : Steady c) (hc : Interpreter.check c.built.machine = some .accepted)
    (hp : c.phase.hasSession = false) (hr : Interpreter.reset c.built.machine = some machine) :
    Yields (firstStep now : Drive I L P (Except Error Outcome)) c fun result d j => Opens c (.started result) d j := by
  have hs : Starts c [] c.loaded machine := ⟨hc, .empty hp, hr⟩
  have hstart : Move now none c _ _ := .start hs.check hs.cleared hs.reset (Or.inr rfl)
  obtain ⟨hbegun, hcleared⟩ := mem_startEntries (c := c) .steppingOnce
  rw [yields_firstStep_started hs]
  refine (executeStep_confined ((hstart.steady h).hear _) rfl rfl).imp ?_
  rintro outcome e k ⟨hsession, hconfined⟩
  have hwhole : Confined c.built.serial (c.startEntries c.loaded [] .steppingOnce ++ k) :=
    confined_append.2 ⟨confined_startEntries _, hconfined⟩
  split
  · refine ⟨rfl, hsession, List.mem_append_left _ hbegun, List.mem_append_left _ hcleared, ?_⟩
    rw [← List.append_assoc]
    exact confined_append.2 ⟨hwhole, confined_change _⟩
  · exact ⟨rfl, hsession, List.mem_append_left _ hbegun, List.mem_append_left _ hcleared, hwhole⟩

theorem start_opens (now : Instant) (h : Steady c) (hc : Interpreter.check c.built.machine = some .accepted)
    (hp : c.phase.hasSession = false) (hop : op = .run ∨ op = .firstStep) :
    Yields (perform now op : Drive I L P Reply) c (Opens c) := by
  cases hr : Interpreter.reset c.built.machine with
  | none => exact yields_of_none (start_breaks hop (Or.inr ⟨hc, begin_breaks_new hr⟩))
  | some machine =>
    obtain rfl | rfl := hop
    · exact (yields_map _ _).2 (run_opens hc hp hr).yields
    · exact (yields_map _ _).2 (firstStep_opens h hc hp hr)

/-- a start whose control is offered opens a session if its program parses -/
theorem yields_opens (h : Steady c) {intent : Intent} {control : Controls → Bool} (hi : intent.startControl? = some control)
    (hop : op = intent.operation ∨ op = .dispatch intent) (hoffer : control c.phase.controls = true)
    (hc : Interpreter.check c.built.machine = some .accepted) :
    Yields (perform now op : Drive I L P Reply) c (Opens c) := by
  have hp : c.phase.hasSession = false := by
    simpa [Intent.startControl_eq hi] using hoffer
  have hplain : intent.operation = .run ∨ intent.operation = .firstStep := by
    obtain rfl | rfl := Intent.start_cases hi
    · exact Or.inl rfl
    · exact Or.inr rfl
  have hopens := start_opens now h hc hp hplain
  obtain rfl | rfl := hop
  · exact hopens
  · rw [yields_dispatch]
    refine hopens.imp ?_
    intro reply d j hopened
    exact ⟨hopened.result, hopened.session, .tail _ hopened.begun, .tail _ hopened.cleared,
      (confined_cons _).2 ⟨rfl, hopened.confined⟩⟩

/-- **What is offered is what can be done.** On a controller with any history: a control of a session is offered exactly
where its request, direct or dispatched, takes effect; a request can break down only where its control is offered, over the
last call that it made, and only a stop can break down before it took effect; and a request whose control is not offered
returns with the controller unchanged, and neither an interpreter nor the presenter has heard of it. A start whose control is
offered, of a program that parses, opens a new session and has no live one to end; it fails to return only where an
interpreter breaks down. And the program text may be edited exactly where no session is live. -/
theorem offered_of_reached {past : List Applied} (h : Reached past c) (now : Instant) :
    (∀ (intent : Intent) (control : Controls → Bool) (op : Operation), intent.control? = some control →
        op = intent.operation ∨ op = .dispatch intent →
          (Yields (perform now op : Drive I L P Reply) c fun _ _ j =>
              control c.phase.controls = true ↔ TakesEffect j) ∧
            (Leaves (perform now op : Drive I L P Reply) c fun j =>
              control c.phase.controls = true ∧ EndsBroken j ∧ (intent = .stop ∨ TakesEffect j)) ∧
            (control c.phase.controls = false →
              Gives (perform now op : Drive I L P Reply) c fun _ d j => d = c ∧ deeds j = [])) ∧
      (∀ (intent : Intent) (control : Controls → Bool) (op : Operation), intent.startControl? = some control →
        op = intent.operation ∨ op = .dispatch intent → control c.phase.controls = true →
          Interpreter.check c.built.machine = some .accepted →
            c.phase.hasSession = false ∧ Yields (perform now op : Drive I L P Reply) c (Opens c) ∧
              Leaves (perform now op : Drive I L P Reply) c EndsBroken) ∧
      ∀ p : Phase, p.controls.editor = true ↔ p.hasSession = false := by
  obtain ⟨hsteady, hq⟩ := h.steady
  refine ⟨?_, ?_, ?_⟩
  · intro intent control op hc hop
    exact ⟨yields_offered hsteady hq hc hop, leaves_offered hsteady hq hc hop, gives_unoffered now hc hq hop⟩
  · intro intent control op hi hop hoffer hc
    refine ⟨?_, yields_opens hsteady hi hop hoffer hc, ?_⟩
    · simpa [Intent.startControl_eq hi] using hoffer
    · intro hnone
      exact (perform_breaks hsteady op hnone).ends
  · intro p
    cases p <;> decide

/-- a session that a fault ended: a stop takes effect, a step does nothing, and a start opens the next session -/
theorem offered_of_reached_faulted :
    ∃ (past : List Applied) (c : Controller Recital (List Recital) Unit),
      Reached past c ∧ c.phase.controls = { run := true, firstStep := true, stop := true, editor := true } ∧
        Interpreter.check c.built.machine = some .accepted ∧
        TakesEffect ((perform 5 (.dispatch .stop) : Drive Recital (List Recital) Unit Reply) c).journal ∧
        (Gives (perform 5 .step : Drive Recital (List Recital) Unit Reply) c fun _ d j => d = c ∧ deeds j = []) ∧
        Gives (perform 5 (.dispatch .run) : Drive Recital (List Recital) Unit Reply) c (Opens c) ∧
        c.nextSession = 2 := by
  let programs : List Recital := [{ steps := [([.instruction 7], .halt (.fault (.program "tape end")))] }, {}]
  let config : Config := {}
  let c : Controller Recital (List Recital) Unit :=
    ((perform 0 .firstStep : Drive Recital (List Recital) Unit Reply) (ofConfig config programs ())).state
  have hreached : Reached _ c := (Reached.new config programs ()).perform 0 .firstStep rfl
  have hoffered : c.phase.controls = { run := true, firstStep := true, stop := true, editor := true } := by decide
  have hchecked : Interpreter.check c.built.machine = some .accepted := by decide
  have hstopped : ((perform 5 (.dispatch .stop) : Drive Recital (List Recital) Unit Reply) c).value.isSome = true := by
    decide
  have hstarted : ((perform 5 (.dispatch .run) : Drive Recital (List Recital) Unit Reply) c).value.isSome = true := by
    decide
  obtain ⟨hrequests, hstarts, -⟩ := offered_of_reached hreached 5
  obtain ⟨hstop, -⟩ := hrequests .stop _ (.dispatch .stop) rfl (Or.inr rfl)
  obtain ⟨-, -, hstep⟩ := hrequests .step _ .step rfl (Or.inl rfl)
  obtain ⟨-, hrun, -⟩ := hstarts .run _ (.dispatch .run) rfl (Or.inr rfl) (by rw [hoffered]) hchecked
  obtain ⟨_, -, heffect⟩ := hstop.gives hstopped
  refine ⟨_, c, hreached, hoffered, hchecked, ?_, ?_, hrun.gives hstarted, by decide⟩
  · exact heffect.1 (by rw [hoffered])
  · exact hstep (by rw [hoffered])

end Controller

end StepControl

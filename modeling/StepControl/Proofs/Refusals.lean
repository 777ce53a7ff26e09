/-
What fails, and what is ignored, leaves everything as it was.

An operation is futile (`Operation.futile?`) where its request has no place in the present phase, or asks for a delay of
zero. This is a table over operations and phases, with the result that the request deserves: none at all, an error that the
request is not allowed, or that the delay is not valid. The only other way to fail is a start whose program does not parse.

From the table to the operations:
- `futile_gives`: a futile operation returns, with the result that it deserves, and nothing else comes of it (`DidNothing`):
  the controller is the same in all its parts, and neither an interpreter nor the presenter was called.
- `intent_futile`: so does a futile intent that is dispatched, by cases of the intents.
- `run_failure`, `firstStep_failure`: a start that is refused called the loader once, had its interpreter check the program,
  and told the presenter; a session that was live goes on as if nothing had been asked (`refused`, `refusalDeeds`).
- `perform_failure`: an operation that fails did so in one of these two ways (`Failure`).

Results:
- `undisturbed_of_reached`: all this on a controller with any history, for operations and for intents that are dispatched.
- `undisturbed_of_reached_running`: a running session, and a start over it whose program does not parse.

Premises: the controller was reached. The interpreter may break down; an operation that breaks down does not fail in this
sense, as it does not return.
-/
import StepControl.Proofs.CallProtocol
import StepControl.Proofs.Histories

namespace StepControl

open StepControl.Action

/-- the result of an operation that can do nothing in the phase `p`; nothing for one that can -/
def Operation.futile? (op : Operation) (p : Phase) : Option (Except Error Unit) :=
  match op.plain with
  | .supplyInput text => if p = .awaitingInput then none else some (.error (.notAllowed (.supplyInput text) p))
  | .setDelay millis => if millis = 0 then some (.error (.invalidDelay "0")) else none
  | .step | .resume => if p = .paused then none else some (.ok ())
  | .pause | .tick => if p = .running then none else some (.ok ())
  | .stop => if p = .idle ∨ p = .stopped then some (.ok ()) else none
  | _ => none

theorem Operation.futile?_dispatch (intent : Intent) (p : Phase) :
    (Operation.dispatch intent).futile? p = intent.operation.futile? p := by
  cases intent <;> rfl

theorem Operation.isStart_dispatch (intent : Intent) :
    (Operation.dispatch intent).isStart = intent.operation.isStart := by
  cases intent <;> rfl

namespace Controller

variable {I L P : Type} [Interpreter I] [Loader L I] [Presenter P] {c : Controller I L P} {now : Instant}
  {op : Operation}

/-! ## Futile operations -/

/-- an operation that its reply, the controller and the journal show to have done nothing, with this result -/
def DidNothing (c : Controller I L P) (result : Except Error Unit) (reply : Reply) (d : Controller I L P)
    (j : List (Entry I)) : Prop :=
  reply.toResult = result ∧ d = c ∧ deeds j = []

theorem intent_futile (intent : Intent) {result : Except Error Unit}
    (h : intent.operation.futile? c.phase = some result) :
    Gives (perform now intent.operation : Drive I L P Reply) c (DidNothing c result) := by
  cases intent with
  | load text => simp [Intent.operation, Operation.futile?, Operation.plain] at h
  | setOptimize on => simp [Intent.operation, Operation.futile?, Operation.plain] at h
  | run => simp [Intent.operation, Operation.futile?, Operation.plain] at h
  | firstStep => simp [Intent.operation, Operation.futile?, Operation.plain] at h
  | step =>
    obtain ⟨hp, rfl⟩ : c.phase ≠ .paused ∧ .ok () = result := by
      simpa [Intent.operation, Operation.futile?, Operation.plain] using h
    rw [Intent.operation, perform, gives_map, gives_of_eq (step_ignored hp)]
    exact ⟨rfl, rfl, rfl⟩
  | pause =>
    obtain ⟨hp, rfl⟩ : c.phase ≠ .running ∧ .ok () = result := by
      simpa [Intent.operation, Operation.futile?, Operation.plain] using h
    simp only [Intent.operation, perform, pause, gives_bind, gives_read, gives_pure]
    split
    case h_1 hrunning => exact absurd hrunning hp
    case h_2 => simpa using ⟨rfl, rfl, rfl⟩
    case h_3 => simpa using ⟨rfl, rfl, rfl⟩
  | resume =>
    obtain ⟨hp, rfl⟩ : c.phase ≠ .paused ∧ .ok () = result := by
      simpa [Intent.operation, Operation.futile?, Operation.plain] using h
    simp only [Intent.operation, perform, resume, gives_bind, gives_read, gives_ite, gives_pure]
    rw [if_neg hp]
    simpa using ⟨rfl, rfl, rfl⟩
  | stop =>
    obtain ⟨hp, rfl⟩ : (c.phase = .idle ∨ c.phase = .stopped) ∧ .ok () = result := by
      simpa [Intent.operation, Operation.futile?, Operation.plain] using h
    rw [Intent.operation, perform, gives_bind, gives_stop_vacant hp, gives_pure]
    exact ⟨rfl, rfl, rfl⟩
  | supplyInput text =>
    obtain ⟨hp, rfl⟩ : c.phase ≠ .awaitingInput ∧ .error (.notAllowed (.supplyInput text) c.phase) = result := by
      simpa [Intent.operation, Operation.futile?, Operation.plain] using h
    rw [Intent.operation, perform, gives_map, gives_supplyInput_rejected hp]
    exact ⟨rfl, rfl, rfl⟩
  | setDelay millis =>
    obtain ⟨rfl, rfl⟩ : millis = 0 ∧ .error (.invalidDelay "0") = result := by
      simpa [Intent.operation, Operation.futile?, Operation.plain] using h
    rw [Intent.operation, perform, gives_map]
    simp only [setDelay, Delay.ofMillis, dif_pos, gives_bind, gives_note, gives_pure]
    exact ⟨rfl, rfl, rfl⟩

/-- **Futile operations do nothing.** They return, with the result that they deserve. -/
theorem futile_gives {result : Except Error Unit} (h : op.futile? c.phase = some result) :
    Gives (perform now op : Drive I L P Reply) c (DidNothing c result) := by
  rcases op.kinds with rfl | ⟨intent, rfl⟩ | ⟨intent, rfl⟩
  · obtain ⟨hp, rfl⟩ : c.phase ≠ .running ∧ .ok () = result := by
      simpa [Operation.futile?, Operation.plain] using h
    rw [perform, gives_map, gives_of_eq (tick_dropped hp)]
    exact ⟨rfl, rfl, rfl⟩
  · exact intent_futile intent h
  · rw [Operation.futile?_dispatch] at h
    rw [gives_dispatch]
    exact (intent_futile intent h).imp fun _ _ _ hnothing => hnothing

/-! ## Starts that are refused -/

/-- the controller after a start that was refused with this message: only the loader and the presenter know of it -/
def refused (c : Controller I L P) (message : String) : Controller I L P :=
  { c with
    loader := (Loader.load c.loader c.program).2
    loads := c.loads + 1
    presenter := Presenter.accept c.presenter (.error message) }

/-- what a start does that is refused with this message: one call of the loader, one check, one announcement -/
def refusalDeeds (c : Controller I L P) (message : String) : List (Entry I) :=
  [.loaded c.built.serial c.program, .called c.built.serial c.built.machine (.check (some (.rejected message))),
    .shown (.error message)]

/-- an operation that fails for `e` is futile, or it is a start and the program does not parse -/
def Failure (c : Controller I L P) (op : Operation) (e : Error) (d : Controller I L P) (j : List (Entry I)) : Prop :=
  op.futile? c.phase = some (.error e) ∨
    op.isStart = true ∧ ∃ message, e = .badProgram message ∧
      Interpreter.check c.built.machine = some (.rejected message) ∧ d = c.refused message ∧
        deeds j = c.refusalDeeds message

/-- a start fails because it is refused, and in no other way -/
theorem run_failure (h : Steady c) :
    Yields (run now : Drive I L P (Except Error Unit)) c fun result d j => ∀ e, result = .error e →
      Failure c .run e d j := by
  rcases h.start_cases with ⟨message, hc⟩ | ⟨j, d, machine, hs⟩ | hbroken
  · refine Gives.yields ?_
    rw [gives_run_rejected hc]
    rintro e ⟨⟩
    exact Or.inr ⟨rfl, message, rfl, hc, rfl, rfl⟩
  · refine Gives.yields ?_
    rw [gives_run_accepted hs.check hs.cleared hs.reset]
    rintro e ⟨⟩
  · exact yields_of_none (run_breaks hbroken)

theorem firstStep_failure (h : Steady c) :
    Yields (firstStep now : Drive I L P (Except Error Outcome)) c fun result d j => ∀ e, result = .error e →
      Failure c .firstStep e d j := by
  rcases h.start_cases with ⟨message, hc⟩ | ⟨j, d, machine, hs⟩ | hbroken
  · refine Gives.yields ?_
    rw [gives_firstStep_rejected hc]
    rintro e ⟨⟩
    exact Or.inr ⟨rfl, message, rfl, hc, rfl, rfl⟩
  · -- whatever the first step comes to, the start did not fail
    rw [yields_firstStep_started hs]
    intro outcome _
    dsimp only
    split
    · rintro e ⟨⟩
    · rintro e ⟨⟩
  · exact yields_of_none (firstStep_breaks hbroken)

omit [Loader L I] in
theorem supplyInput_failure (h : Steady c) (text : String) :
    Yields (supplyInput now text : Drive I L P (Except Error Unit)) c fun result _ _ => ∀ e, result = .error e →
      (Operation.supplyInput text).futile? c.phase = some (.error e) := by
  rcases supplyInput_cases now text h with hp | ⟨hp, cell, inst, verdict, machine, hg, hl, ht⟩ | hbroken
  · refine Gives.yields ?_
    rw [gives_supplyInput_rejected hp]
    rintro e ⟨⟩
    simp [Operation.futile?, Operation.plain, hp]
  · refine Gives.yields ?_
    cases verdict with
    | proceed =>
      rw [gives_supplyInput_proceed hp hg hl ht]
      rintro e ⟨⟩
    | halt why =>
      rw [gives_supplyInput_halt hp hg hl (h.errorShown (by rw [hp]; rfl)) ht]
      rintro e ⟨⟩
  · exact yields_of_none hbroken

omit [Interpreter I] [Loader L I] [Presenter P] in
theorem setDelay_failure (millis : UInt64) :
    Yields (setDelay now millis : Drive I L P (Except Error Unit)) c fun result _ _ => ∀ e, result = .error e →
      (Operation.setDelay millis).futile? c.phase = some (.error e) := by
  by_cases hzero : millis = 0
  · subst hzero
    refine Gives.yields ?_
    simp only [setDelay, Delay.ofMillis, dif_pos, gives_bind, gives_note, gives_pure]
    rintro e ⟨⟩
    rfl
  · refine Gives.yields ?_
    simp only [setDelay, Delay.ofMillis, dif_neg hzero, gives_bind, gives_update, gives_read, gives_note, gives_pure]
    rintro e ⟨⟩

/-- an operation that gives no error does not fail -/
theorem unfailing {α : Type} (m : Drive I L P α) {f : α → Reply} (hf : ∀ a, (f a).toResult = .ok ()) :
    Yields (f <$> m) c fun reply d j => ∀ e, reply.toResult = .error e → Failure c op e d j := by
  rw [yields_map]
  intro a _ e he
  rw [hf] at he
  cases he

theorem intent_failure (h : Steady c) (intent : Intent) :
    Yields (perform now intent.operation : Drive I L P Reply) c fun reply d j => ∀ e, reply.toResult = .error e →
      Failure c intent.operation e d j := by
  cases intent with
  | run => exact (yields_map _ _).2 (run_failure h)
  | firstStep =>
    refine (yields_map _ _).2 ((firstStep_failure h).imp ?_)
    intro result d j hfailed e he
    cases result with
    | error e' =>
      obtain rfl : e' = e := Except.error.inj he
      exact hfailed _ rfl
    | ok outcome => exact absurd he (by simp [Reply.toResult])
  | supplyInput text =>
    refine (yields_map _ _).2 ((supplyInput_failure h text).imp ?_)
    exact fun result _ _ hfailed e he => Or.inl (hfailed e he)
  | setDelay millis =>
    refine (yields_map _ _).2 ((setDelay_failure millis).imp ?_)
    exact fun result _ _ hfailed e he => Or.inl (hfailed e he)
  | step => exact unfailing (step now) fun _ => rfl
  | stop => exact unfailing stop fun _ => rfl
  | pause => exact unfailing pause fun _ => rfl
  | resume => exact unfailing (resume now) fun _ => rfl
  | load text => exact unfailing (load text) fun _ => rfl
  | setOptimize on => exact unfailing (setOptimize on) fun _ => rfl

/-- **An operation fails in two ways only**: because it is futile, or as a start that is refused. -/
theorem perform_failure (h : Steady c) (op : Operation) :
    Yields (perform now op : Drive I L P Reply) c fun reply d j => ∀ e, reply.toResult = .error e → Failure c op e d j := by
  rcases op.kinds with rfl | ⟨intent, rfl⟩ | ⟨intent, rfl⟩
  · exact unfailing (tick now) fun _ => rfl
  · exact intent_failure h intent
  · rw [yields_dispatch]
    refine (intent_failure h intent).imp ?_
    intro reply d j hfailed e he
    rcases hfailed e he with hfutile | ⟨hstart, message, rest⟩
    · rw [← Operation.futile?_dispatch] at hfutile
      exact Or.inl hfutile
    · rw [← Operation.isStart_dispatch] at hstart
      exact Or.inr ⟨hstart, message, rest⟩

/-- **What fails, and what is ignored, leaves everything as it was.** On a controller with any history, every futile
operation returns with the result that it deserves, and did nothing; and an operation that fails is futile, or it is a start
whose program does not parse, of which only the loader and the presenter have heard. -/
theorem undisturbed_of_reached {past : List Applied} (h : Reached past c) (now : Instant) (op : Operation) :
    (∀ result, op.futile? c.phase = some result → Gives (perform now op : Drive I L P Reply) c (DidNothing c result)) ∧
      Yields (perform now op : Drive I L P Reply) c fun reply d j => ∀ e, reply.toResult = .error e → Failure c op e d j :=
  ⟨fun _ hfutile => futile_gives hfutile, perform_failure h.steady.1 op⟩

/-- a running session, and a start over it whose program does not parse -/
theorem undisturbed_of_reached_running :
    ∃ (past : List Applied) (c : Controller Recital (List Recital) Unit),
      Reached past c ∧ c.phase = .running ∧ c.timer.schedule = some { armedAt := 0 } ∧
        ((∀ result, (Operation.dispatch .run).futile? c.phase = some result →
            Gives (perform 5 (.dispatch .run) : Drive Recital (List Recital) Unit Reply) c (DidNothing c result)) ∧
          Yields (perform 5 (.dispatch .run) : Drive Recital (List Recital) Unit Reply) c fun reply d j =>
            ∀ e, reply.toResult = .error e → Failure c (.dispatch .run) e d j) ∧
        ((perform 5 (.dispatch .run) : Drive Recital (List Recital) Unit Reply) c).value.map Reply.toResult =
          some (.error (.badProgram "no")) := by
  let start : Drive Recital (List Recital) Unit Reply := perform 0 .run
  have hreached : Reached _ (start (ofConfig {} [{}, { answer := .rejected "no" }] ())).state :=
    (Reached.new _ _ _).perform 0 .run rfl
  exact ⟨_, _, hreached, rfl, rfl, undisturbed_of_reached hreached 5 (.dispatch .run), rfl⟩

end Controller

end StepControl

/-
The guards of a controller are never struck.

An operation is on its guard in four places: where input comes and no interpreter is there to take it, or no cell waits for
it; where a step is due and no interpreter is there to take it; and where a step asks for input while an earlier request is
still outstanding. What is done there can be exchanged (`Guards`).

(1) Operations with other guards. `Guards.perform` is an operation in which these places do what `g` says.
- `Guards.own_perform`: with the controller's own guards (`Guards.own`) it is the operation.
- `guarded_of_vacant`, `guarded_of_unattended`, `guarded_of_displaced`: a guard that is struck shows; with other guards the
  operation comes to something else.

(2) Steady controllers. `Guards.perform_unstruck`: no operation on a steady controller strikes a guard, as its fields agree
with each other. So a request for input is never made while another one is outstanding (`perform_undisplaced`), and no input
is answered with "no input request is outstanding" (`Reached.replies`).

Results:
- `unguarded_of_reached`: on a controller with any history, and in every session of it, whatever is done next comes to the
  same with all guards, also where the interpreter breaks down in the middle of it. The defensive branches are dead code.
- `unguarded_of_reached_asking`: a step that asks twice, a restart while its input is waited for, and what comes after it.

Premises: none of the interpreter or the loader. The guards range over all actions of the type that the place asks for.
-/
import StepControl.Proofs.Refusals
import StepControl.Proofs.Breakdowns
import StepControl.Proofs.Turns

namespace StepControl

open StepControl.Action

namespace Controller

variable {I L P : Type}

/-- what a controller does where it finds itself out of order -/
structure Guards (I L P : Type) where
  /-- input has come, and there is no interpreter -/
  unattended : Drive I L P (Except Error Unit)
  /-- input has come, and no cell waits for it -/
  unasked : Drive I L P (Except Error Unit)
  /-- a step is due, and there is no interpreter -/
  vacant : Drive I L P Outcome
  /-- input is asked for `cell` while `previous` waits for its input; the request is made all the same -/
  displaced (previous cell : Cell) : Drive I L P Unit

variable [Interpreter I] [Loader L I] [Presenter P]

namespace Guards

/-- what the controller does by itself -/
def own : Guards I L P where
  unattended := pure (.error .noPendingInput)
  unasked := pure (.error .noPendingInput)
  vacant := halt (.fault (.internal "step requested without a loaded interpreter"))
  displaced previous cell := note [.requestReplaced previous cell]

variable (g : Guards I L P)

/-! ## Operations with guards -/

def awaitInput (now : Instant) (cell : Cell) : Drive I L P Unit := do
  let c ← Action.read
  let asked := c.gate.request cell
  match c.gate.displaced? with
  | none => pure ()
  | some previous => g.displaced previous cell
  Action.update fun c => { c with gate := asked.1 }
  follow now asked.2
  announce (.inputRequested cell)

def settleStep (now : Instant) (events : StepBuffer) : Drive I L P Outcome :=
  match events.request? with
  | some cell => do
    g.awaitInput now cell
    pure (.inputRequested cell)
  | none => pure (if events.output = [] then .advanced else .outputProduced events.output)

def executeStep (now : Instant) : Drive I L P Outcome := do
  let c ← Action.read
  match c.live with
  | none => g.vacant
  | some inst =>
    let stepped := Interpreter.next inst.machine c.optimize
    let filled := c.buffer.fill stepped.hooks
    called inst (.next c.optimize stepped.hooks (stepped.ending.map (·.1)))
    note (filled.2.map .requestTooLate)
    Action.update fun c => { c with buffer := filled.1 }
    let ending ← Action.demand stepped.ending
    Action.update fun c => { c with buffer := {}, live := some { inst with machine := ending.2 } }
    announceAll (filled.1.events.filterMap progress?)
    match ending.1 with
    | .halt why => halt why
    | .proceed => g.settleStep now filled.1

def firstStep (now : Instant) : Drive I L P (Except Error Outcome) := do
  match ← prepare with
  | .error e => pure (.error e)
  | .ok inst =>
    begin inst
    goTo .steppingOnce
    let outcome ← g.executeStep now
    let c ← Action.read
    if c.phase = .steppingOnce then goTo .paused
    pure (.ok outcome)

def step (now : Instant) : Drive I L P (Option Outcome) := do
  let c ← Action.read
  if c.phase = .paused then some <$> g.executeStep now
  else
    ignore .step
    pure none

def tick (now : Instant) : Drive I L P (Option Outcome) := do
  let c ← Action.read
  if c.phase = .running then some <$> g.executeStep now
  else
    note [.tickDropped c.phase]
    pure none

def supplyInput (now : Instant) (text : String) : Drive I L P (Except Error Unit) := do
  let c ← Action.read
  if c.phase = .awaitingInput ∧ c.live = none then g.unattended
  else if c.phase = .awaitingInput ∧ c.pending = none then g.unasked
  else Controller.supplyInput now text

def attempt (now : Instant) : Operation → Drive I L P Reply
  | .firstStep => .started <$> g.firstStep now
  | .step => .stepped <$> g.step now
  | .tick => .stepped <$> g.tick now
  | .supplyInput text => .result <$> g.supplyInput now text
  | op => Controller.perform now op

def perform (now : Instant) : Operation → Drive I L P Reply
  | .dispatch intent => do
    let c ← Action.read
    note [.dispatching intent c.phase]
    (Reply.result ∘ Reply.toResult) <$> g.attempt now intent.operation
  | op => g.attempt now op

def performAll : List (Instant × Operation) → Drive I L P (List Reply)
  | [] => pure []
  | (now, op) :: rest => do
    let reply ← g.perform now op
    let replies ← performAll rest
    pure (reply :: replies)

/-! ## The controller's own guards -/

omit [Interpreter I] [Loader L I] in
theorem own_awaitInput (now : Instant) (cell : Cell) :
    (own : Guards I L P).awaitInput now cell = Controller.awaitInput now cell := by
  funext c
  cases hg : c.gate.displaced? <;> simp [awaitInput, Controller.awaitInput, own, bind_apply, hg]

omit [Interpreter I] [Loader L I] in
theorem own_settleStep (now : Instant) (events : StepBuffer) :
    (own : Guards I L P).settleStep now events = Controller.settleStep now events := by
  unfold settleStep Controller.settleStep
  cases events.request? with
  | none => rfl
  | some cell => simp only [own_awaitInput]

omit [Loader L I] in
theorem own_executeStep (now : Instant) :
    (own : Guards I L P).executeStep now = Controller.executeStep now := by
  unfold executeStep Controller.executeStep
  simp only [own_settleStep]
  rfl

omit [Loader L I] in
theorem own_supplyInput (now : Instant) (text : String) :
    (own : Guards I L P).supplyInput now text = Controller.supplyInput now text := by
  funext c
  by_cases hp : c.phase = .awaitingInput
  · cases hl : c.live with
    | none => simp [supplyInput, Controller.supplyInput, own, bind_apply, hp, hl]
    | some inst =>
      cases hg : c.pending with
      | some cell => simp [supplyInput, bind_apply, hl, hg]
      | none =>
        -- the gate is closed already, so closing it leaves it as it is
        have hgate : c.gate = {} := congrArg Gate.mk hg
        calc (own : Guards I L P).supplyInput now text c
            = ⟨some (.error .noPendingInput), c, []⟩ := by simp [supplyInput, own, bind_apply, hp, hl, hg]
          _ = ⟨some (.error .noPendingInput), { c with gate := {} }, []⟩ := by rw [← hgate]
          _ = Controller.supplyInput now text c := by
            simp [Controller.supplyInput, bind_apply, hp, hl, Gate.supply, hgate]
  · simp [supplyInput, bind_apply, hp]

theorem own_attempt (now : Instant) (op : Operation) :
    (own : Guards I L P).attempt now op = Controller.perform now op := by
  cases op with
  | firstStep | step | tick =>
    simp only [attempt, firstStep, step, tick, own_executeStep]
    rfl
  | supplyInput text => simp only [attempt, own_supplyInput, Controller.perform]
  | _ => rfl

/-- **With its own guards an operation is what it is.** -/
theorem own_perform (now : Instant) (op : Operation) :
    (own : Guards I L P).perform now op = Controller.perform now op := by
  cases op with
  | dispatch intent =>
    rw [perform, Controller.perform, own_attempt, dispatch_eq]
    simp only [map_bind, Functor.map_map]
    rfl
  | _ => simp only [perform, own_attempt]

/-! ## Guards that are not struck -/

variable {c : Controller I L P}

omit [Interpreter I] [Loader L I] in
/-- the gate is open to a request -/
theorem settleStep_unstruck (hg : c.gate = {}) (now : Instant) (events : StepBuffer) :
    g.settleStep now events c = Controller.settleStep now events c := by
  unfold settleStep Controller.settleStep
  cases events.request? with
  | none => rfl
  | some cell =>
    have hasked : g.awaitInput now cell c = Controller.awaitInput now cell c := by
      simp [awaitInput, Controller.awaitInput, bind_apply, Gate.displaced?, hg]
    exact bind_apply_congr hasked fun _ _ => rfl

omit [Loader L I] in
/-- an interpreter is there to take the step -/
theorem executeStep_unstruck (h : Steady c) (hp : c.phase.canStep = true) (now : Instant) :
    g.executeStep now c = Controller.executeStep now c := by
  obtain ⟨inst, hl⟩ := h.exists_live (Or.inl (Phase.hasSession_of_canStep hp))
  have hg : c.gate = {} := h.gate_eq (by rintro hq; simp [hq, Phase.canStep] at hp)
  rcases hn : Interpreter.next inst.machine c.optimize with ⟨hooks, ending⟩
  cases ending with
  | none => simp [executeStep, Controller.executeStep, bind_apply, hl, hn]
  | some ending =>
    obtain ⟨verdict, machine⟩ := ending
    cases verdict with
    | halt why => simp [executeStep, Controller.executeStep, bind_apply, hl, hn]
    | proceed => simp [executeStep, Controller.executeStep, bind_apply, hl, hn, settleStep_unstruck, hg]

/-- a start that takes its first step finds the interpreter that it has loaded, and no request from before -/
theorem firstStep_unstruck (h : Steady c) (now : Instant) : g.firstStep now c = Controller.firstStep now c := by
  unfold firstStep Controller.firstStep
  refine bind_apply_congr rfl ?_
  rcases h.start_cases with ⟨message, hc⟩ | ⟨j, d, machine, hs⟩ | hbroken
  · exact Gives.yields ((gives_prepare_rejected hc).2 rfl)
  · have hstart : Move now none c _ _ := .start hs.check hs.cleared hs.reset (Or.inr rfl)
    have hstepped := executeStep_unstruck g ((hstart.steady h).hear (c.startEntries d j .steppingOnce)) rfl now
    refine Gives.yields ((gives_prepare_accepted hs.check).2 (bind_apply_congr rfl ?_))
    refine Gives.yields ((gives_begin hs.cleared hs.reset).2 (bind_apply_congr rfl ?_))
    exact yields_of_eq (hs.enters now) (bind_apply_congr hstepped fun _ _ => rfl)
  · rcases hbroken with hc | ⟨hc, hbegin⟩
    · exact yields_of_none (prepare_breaks hc)
    · exact Gives.yields ((gives_prepare_accepted hc).2 (bind_apply_congr rfl (yields_of_none hbegin)))

omit [Loader L I] in
/-- where a controller waits for input, an interpreter and a cell wait for it -/
theorem supplyInput_unstruck (h : Steady c) (now : Instant) (text : String) :
    g.supplyInput now text c = Controller.supplyInput now text c := by
  have hattended : ¬ (c.phase = .awaitingInput ∧ c.live = none) := by
    rintro ⟨hp, hl⟩
    obtain ⟨inst, hlive⟩ := h.exists_live (Or.inl (by rw [hp]; rfl))
    simp [hlive] at hl
  have hasked : ¬ (c.phase = .awaitingInput ∧ c.pending = none) := by
    rintro ⟨hp, hg⟩
    have hpending := h.pending.2 hp
    simp [hg] at hpending
  simp [supplyInput, bind_apply, if_neg hattended, if_neg hasked]

omit [Loader L I] in
/-- an operation that takes a step in one phase only -/
theorem stepsIn_unstruck (h : Steady c) {p : Phase} (hp : p.canStep = true) (now : Instant)
    (otherwise : Controller I L P → Drive I L P (Option Outcome)) :
    (Action.read >>= fun d => if d.phase = p then some <$> g.executeStep now else otherwise d) c =
      (Action.read >>= fun d => if d.phase = p then some <$> Controller.executeStep now else otherwise d) c := by
  by_cases hc : c.phase = p
  · have hstepped := executeStep_unstruck g h (by rw [hc]; exact hp) now
    simp [bind_apply, map_apply, hc, hstepped]
  · simp [bind_apply, hc]

omit [Loader L I] in
theorem step_unstruck (h : Steady c) (now : Instant) : g.step now c = Controller.step now c :=
  stepsIn_unstruck g h rfl now _

omit [Loader L I] in
theorem tick_unstruck (h : Steady c) (now : Instant) : g.tick now c = Controller.tick now c :=
  stepsIn_unstruck g h rfl now _

theorem attempt_unstruck (h : Steady c) (now : Instant) (op : Operation) :
    g.attempt now op c = Controller.perform now op c := by
  cases op with
  | firstStep => exact bind_apply_congr (firstStep_unstruck g h now) fun _ _ => rfl
  | step => exact bind_apply_congr (step_unstruck g h now) fun _ _ => rfl
  | tick => exact bind_apply_congr (tick_unstruck g h now) fun _ _ => rfl
  | supplyInput text => exact bind_apply_congr (supplyInput_unstruck g h now text) fun _ _ => rfl
  | _ => rfl

/-- **No operation on a steady controller strikes a guard.** -/
theorem perform_unstruck (h : Steady c) (now : Instant) (op : Operation) :
    g.perform now op c = Controller.perform now op c := by
  cases op with
  | dispatch intent =>
    have hattempt : g.attempt now intent.operation c = (own : Guards I L P).attempt now intent.operation c := by
      rw [own_attempt]
      exact attempt_unstruck g h now intent.operation
    rw [← own_perform]
    refine bind_apply_congr rfl (yields_of_eq (read_apply c) ?_)
    refine bind_apply_congr rfl (yields_of_eq (note_apply _ c) ?_)
    exact bind_apply_congr hattempt fun _ _ => rfl
  | _ => simp only [perform, attempt_unstruck g h]

end Guards

variable {c d : Controller I L P} {j : List (Entry I)} {now : Instant} {given : Option String} {past : List Applied}

/-! ## The log of requests -/

section

variable (previous cell : Cell)

omit [Interpreter I] [Loader L I] [Presenter P] in
theorem undisplaced_farewell (why : Halt) : .noted (.requestReplaced previous cell) ∉ c.farewell why := by
  rcases why with _ | ⟨message⟩ | ⟨message⟩ <;> simp [farewell, change]

omit [Interpreter I] [Loader L I] [Presenter P] in
/-- requests that come too late in a step do not reach the gate -/
theorem undisplaced_stepEntries (inst : Instance I) (hooks : List Hook) (verdict : Verdict) :
    .noted (.requestReplaced previous cell) ∉ c.stepEntries inst hooks verdict := by
  simp [stepEntries]

omit [Loader L I] [Presenter P] in
theorem Cleared.undisplaced (h : Cleared c j d) : .noted (.requestReplaced previous cell) ∉ j := by
  cases h <;> simp [teardown, change]

omit [Presenter P] in
/-- in no move a request displaces another one -/
theorem Move.undisplaced (h : Move now given c j d) : .noted (.requestReplaced previous cell) ∉ j := by
  cases h with
  | remark note isRemark => cases note <;> simp_all [Note.isRemark]
  | start check cleared reset kind =>
    simp [startEntries, greeting, beginning, loadEntries, change, cleared.undisplaced]
  | stop busy cleared => exact cleared.undisplaced previous cell
  | _ => simp [refusal, loadEntries, question, teardown, change, undisplaced_stepEntries, undisplaced_farewell]

theorem Moves.undisplaced (h : Moves now given c j d) : .noted (.requestReplaced previous cell) ∉ j := by
  induction h with
  | refl => exact List.not_mem_nil
  | step first _ ih => exact List.not_mem_append (first.undisplaced previous cell) ih

omit [Presenter P] in
theorem Broken.undisplaced (h : Broken given c j) : .noted (.requestReplaced previous cell) ∉ j := by
  cases h with
  | startNew check cleared reset => simp [loadEntries, cleared.undisplaced]
  | _ => simp [loadEntries]

/-- **No operation has a request for input displace another one**, also where it breaks down. -/
theorem perform_undisplaced (h : Steady c) (hq : c.phase ≠ .steppingOnce) (now : Instant) (op : Operation) :
    .noted (.requestReplaced previous cell) ∉ ((perform now op : Drive I L P Reply) c).journal := by
  cases hv : ((perform now op : Drive I L P Reply) c).value with
  | none =>
    obtain ⟨front, d, last, hfront, hlast, hj⟩ := perform_breaks h op hv
    rw [hj]
    exact List.not_mem_append (hfront.undisplaced previous cell) (hlast.undisplaced previous cell)
  | some reply =>
    obtain ⟨hmoves, -⟩ := perform_yields h hq op reply hv
    exact hmoves.undisplaced previous cell

end

/-! ## Replies -/

omit [Interpreter I] [Loader L I] [Presenter P] in
/-- a futile operation fails for its phase, or for its delay -/
theorem futile?_ne_noPendingInput (op : Operation) (p : Phase) : op.futile? p ≠ some (.error .noPendingInput) := by
  cases hplain : op.plain <;> simp [Operation.futile?, hplain]

/-- no operation is answered that no input was asked for -/
theorem perform_reply (h : Steady c) (now : Instant) (op : Operation) :
    (perform now op : Drive I L P Reply).Yields c fun reply _ _ => reply.toResult ≠ .error .noPendingInput := by
  refine (perform_failure h op).imp ?_
  intro reply d j hfailure he
  rcases hfailure _ he with hfutile | ⟨-, message, hmessage, -⟩
  · exact futile?_ne_noPendingInput op c.phase hfutile
  · exact absurd hmessage (by simp)

/-! ## Runs -/

/-- operations one after the other that strike no guard -/
structure Unguarded (ops : List (Instant × Operation)) (c : Controller I L P) : Prop where
  /-- with other guards they come to the same, also where the interpreter breaks down -/
  same : ∀ g : Guards I L P, g.performAll ops c = performAll ops c
  /-- no request for input displaced another one -/
  log : ∀ previous cell,
    .noted (.requestReplaced previous cell) ∉ ((performAll ops : Drive I L P (List Reply)) c).journal
  /-- no operation was answered that no input was asked for -/
  replies : (performAll ops : Drive I L P (List Reply)).Yields c fun replies _ _ =>
    ∀ reply ∈ replies, reply.toResult ≠ .error .noPendingInput

/-- **Runs from a steady controller strike no guard.** -/
theorem Steady.unguarded (h : Steady c) (hq : c.phase ≠ .steppingOnce) (ops : List (Instant × Operation)) :
    Unguarded ops c := by
  induction ops generalizing c with
  | nil => exact ⟨fun _ => rfl, fun _ _ => List.not_mem_nil, by simp [Yields, performAll]⟩
  | cons op rest ih =>
    obtain ⟨now, op⟩ := op
    have hrest : (perform now op : Drive I L P Reply).Yields c fun _ d _ => Unguarded rest d := by
      refine (perform_yields h hq op).imp ?_
      intro _ d j hmoves
      exact ih (hmoves.1.steady h) hmoves.2
    refine ⟨?_, ?_, ?_⟩
    · intro g
      have hfirst := g.perform_unstruck h now op
      refine bind_apply_congr hfirst ?_
      rw [yields_congr hfirst]
      exact hrest.imp fun _ d _ hd => bind_apply_congr (hd.same g) fun _ _ => rfl
    · intro previous cell
      have hfirst := perform_undisplaced previous cell h hq now op
      cases hv : ((perform now op : Drive I L P Reply) c).value with
      | none =>
        rw [performAll_cons_broken rest hv]
        exact hfirst
      | some reply =>
        rw [performAll_cons_apply rest hv]
        exact List.not_mem_append hfirst ((hrest reply hv).log previous cell)
    · refine (yields_bind _ _).2 ?_
      intro reply hv
      refine (yields_bind _ _).2 ?_
      intro replies hreplies
      have hfirst := perform_reply h now op reply hv
      have htail := (hrest reply hv).replies replies hreplies
      exact yields_of_eq rfl (List.forall_mem_cons.2 ⟨hfirst, htail⟩)

theorem Reached.replies (h : Reached past c) : ∀ e ∈ past, e.reply.toResult ≠ .error .noPendingInput := by
  induction h with
  | new config loader presenter => exact List.forall_mem_nil _
  | perform front now op returned ih =>
    have hlast := perform_reply front.steady.1 now op _ returned
    exact List.forall_mem_append.2 ⟨ih, List.forall_mem_singleton.2 hlast⟩
  | poll front now ih => exact ih

/-! ## Guards that are struck -/

/-- where no guard is struck it does not matter what the guards do -/
theorem Unguarded.agree {ops : List (Instant × Operation)} (h : Unguarded ops c) (g g' : Guards I L P) :
    (g.performAll ops c).value = (g'.performAll ops c).value := by
  calc (g.performAll ops c).value
      = ((performAll ops : Drive I L P (List Reply)) c).value := congrArg Turn.value (h.same g)
    _ = (g'.performAll ops c).value := congrArg Turn.value (h.same g').symm

/-- a tick of a running session strikes a guard where there is no interpreter -/
theorem guarded_of_vacant (hp : c.phase = .running) (hl : c.live = none) (now : Instant) :
    ¬ Unguarded [(now, .tick)] c := by
  intro h
  have hagree := h.agree { Guards.own with vacant := pure .advanced } { Guards.own with vacant := demand none }
  simp [Guards.performAll, Guards.perform, Guards.attempt, Guards.tick, Guards.executeStep, bind_apply, map_apply, hp,
    hl] at hagree

/-- an input strikes a guard where a controller waits for it without an interpreter, or without a request -/
theorem guarded_of_unattended (hp : c.phase = .awaitingInput) (hc : c.live = none ∨ c.pending = none) (now : Instant)
    (text : String) : ¬ Unguarded [(now, .supplyInput text)] c := by
  intro h
  have hagree := h.agree { Guards.own with unattended := pure (.ok ()), unasked := pure (.ok ()) }
    { Guards.own with unattended := demand none, unasked := demand none }
  cases hl : c.live with
  | none =>
    simp [Guards.performAll, Guards.perform, Guards.attempt, Guards.supplyInput, bind_apply, map_apply, hp, hl] at hagree
  | some inst =>
    have hg : c.pending = none := by simpa [hl] using hc
    simp [Guards.performAll, Guards.perform, Guards.attempt, Guards.supplyInput, bind_apply, map_apply, hp, hl,
      hg] at hagree

/-- a step that asks for input strikes a guard where a request is outstanding -/
theorem guarded_of_displaced {inst : Instance I} {hooks : List Hook} {machine : I} {previous cell : Cell}
    (hp : c.phase = .paused) (hl : c.live = some inst) (hb : c.buffer = {})
    (hn : Interpreter.next inst.machine c.optimize = ⟨hooks, some (.proceed, machine)⟩)
    (ha : StepBuffer.firstRequest hooks = some cell) (hg : c.gate = ⟨some previous⟩) (now : Instant) :
    ¬ Unguarded [(now, .step)] c := by
  intro h
  have hagree := h.agree { Guards.own with displaced := fun _ _ => pure () }
    { Guards.own with displaced := fun _ _ => demand none }
  simp [Guards.performAll, Guards.perform, Guards.attempt, Guards.step, Guards.executeStep, Guards.settleStep,
    Guards.awaitInput, follow, Gate.request, goTo_apply, bind_apply, map_apply, StepBuffer.fill_request?,
    Gate.displaced?, hp, hl, hb, hn, ha, hg] at hagree

end Controller

namespace Session

variable {I L P : Type} [Interpreter I] [Loader L I] [Presenter P] {s t : Session I L P} {as : List Act}
  {es : List Command} {now : Instant} {act : Act}

/-- a controller that is between two operations, where the task has not broken down; and no sender was told that no input
was asked for -/
structure Answering (s : Session I L P) : Prop where
  current : s.status ≠ .crashed → Current s
  replies : ∀ r ∈ s.replies, r.2 ≠ .error .noPendingInput

theorem Completed.answering {reply : Reply} (hc : Completed s act reply t) (h : Answering s) : Answering t := by
  have hcurrent : Current s := h.current (by rw [hc.status.1]; decide)
  have hreply := Controller.perform_reply (hcurrent.atHand act).1 act.asked.1 act.asked.2 reply hc.value
  refine ⟨fun _ => hc.current hcurrent, ?_⟩
  rw [hc.replies]
  refine List.forall_mem_append.2 ⟨h.replies, ?_⟩
  cases act with
  | dispatch now command => exact List.forall_mem_singleton.2 hreply
  | tick now => exact List.forall_mem_nil _

theorem Step.answering (hstep : Step s as es t) (h : Answering s) : Answering t := by
  cases hstep.kinds with
  | rests hr =>
    refine ⟨?_, by rw [hr.replies]; exact h.replies⟩
    intro hgoing
    exact hr.current (h.current fun hcrashed => hgoing (hstep.crashed hcrashed))
  | completed hc => exact hc.answering h
  | broke hb => exact ⟨fun hgoing => absurd hb.status.2 hgoing, by rw [hb.replies]; exact h.replies⟩

theorem Runs.answering (h : Runs s as es t) (hs : Answering s) : Answering t := by
  induction h with
  | refl => exact hs
  | snoc _ last ih => exact last.answering ih

/-- what the task has its controller do strikes no guard -/
theorem Answering.unguarded (h : Answering s) (hacts : s.acts now = [act]) :
    Controller.Unguarded [act.asked] (s.atHand act) := by
  have hgoing : s.status ≠ .crashed := by
    intro hcrashed
    simp [acts, hcrashed] at hacts
  obtain ⟨hsteady, hq⟩ := (h.current hgoing).atHand act
  exact hsteady.unguarded hq _

end Session

namespace Controller

open Session (Runs spawn?)

variable {I L P : Type} [Interpreter I] [Loader L I] [Presenter P] {c : Controller I L P} {past : List Applied}

/-- **The guards of a controller are never struck.** With any loader and any interpreter, whatever was done with a new
controller was not answered that no input was asked for; and whatever is done next, for any number of operations and up to
where the interpreter breaks down, comes to the same with other guards, has no request for input displace another one, and
is not answered so either. The same goes for a session that the controller is handed over to. -/
theorem unguarded_of_reached (h : Reached past c) :
    (∀ e ∈ past, e.reply.toResult ≠ .error .noPendingInput) ∧ (∀ ops, Unguarded ops c) ∧
      ∀ s t as es, spawn? c = some s → Runs s as es t →
        (∀ r ∈ t.replies, r.2 ≠ .error .noPendingInput) ∧
          ∀ now act, t.acts now = [act] → Unguarded [act.asked] (t.atHand act) := by
  refine ⟨h.replies, h.steady.1.unguarded h.steady.2, ?_⟩
  intro s t as es hs hrun
  have hspawned : s.Answering := by
    refine ⟨fun _ => Session.current_spawn h hs, ?_⟩
    obtain rfl := Session.spawn?_eq hs
    exact List.forall_mem_nil _
  have hanswering := hrun.answering hspawned
  exact ⟨hanswering.replies, fun now act hacts => hanswering.unguarded hacts⟩

/-- a step that asks twice, and a restart while its input is waited for; then an input that the program rejects, one that
comes after the stop, and a step that asks and halts. A session that the waiting controller is handed over to goes on with
its input and asks again. -/
theorem unguarded_of_reached_asking :
    ∃ (past : List Applied) (c : Controller Recital (List Recital) Unit) (ops : List (Instant × Operation)),
      Reached past c ∧ c.pending = some ⟨3⟩ ∧ (∀ e ∈ past, e.reply.toResult ≠ .error .noPendingInput) ∧
        Unguarded ops c ∧
        ((performAll ops : Drive Recital (List Recital) Unit (List Reply)) c).value.map (·.map Reply.toResult) =
          some [.ok (), .ok (), .ok (), .ok (), .error (.notAllowed (.supplyInput "y") .idle), .ok ()] ∧
        ∃ s t as es, spawn? c = some s ∧ Runs s as es t ∧ (∀ r ∈ t.replies, r.2 ≠ .error .noPendingInput) ∧
          ∃ act : Act, t.acts 100000000 = [act] ∧ Unguarded [act.asked] (t.atHand act) ∧
            (t.applying act).state.pending = some ⟨8⟩ := by
  let programs : List Recital :=
    [{ steps := [([.output 65, .requestInput ⟨3⟩, .requestInput ⟨4⟩], .proceed), ([.requestInput ⟨8⟩], .proceed)] },
      { steps := [([.requestInput ⟨5⟩], .proceed)], puts := [.halt (.fault (.program "no digit"))] },
      { steps := [([.requestInput ⟨7⟩], .halt .completion)] }]
  let ops : List (Instant × Operation) := [(1, .dispatch .run), (2, .tick), (3, .supplyInput "x"), (4, .stop),
    (5, .supplyInput "y"), (6, .dispatch .firstStep)]
  let start : Turn (Controller Recital (List Recital) Unit) (Entry Recital) Reply :=
    (perform 0 .firstStep : Drive Recital (List Recital) Unit Reply) (ofConfig {} programs ())
  let c : Controller Recital (List Recital) Unit := start.state
  obtain ⟨reply, hreply⟩ := Option.isSome_iff_exists.1 (show start.value.isSome = true by decide)
  have hreached : Reached _ c := (Reached.new _ _ _).perform 0 .firstStep hreply
  obtain ⟨hpast, hops, hsessions⟩ := unguarded_of_reached hreached
  obtain ⟨s', hs⟩ := Option.isSome_iff_exists.1 (show (spawn? c).isSome = true by decide)
  obtain rfl := Session.spawn?_eq hs
  let s : Session Recital (List Recital) Unit :=
    { controller := c, capacity := max c.config.channelSize.toNat 1, watch := { phase := c.phase } }
  have hrun := Session.runs_request (s := s) 10000000 (.supplyInput "z") rfl
  obtain ⟨hreplies, hacts⟩ := hsessions _ _ _ _ hs hrun
  refine ⟨_, c, ops, hreached, ?_, hpast, hops ops, ?_, _, _, _, _, hs, hrun, hreplies, .tick 100000000, ?_, ?_, ?_⟩
  · decide
  · decide
  · decide
  · refine hacts 100000000 (.tick 100000000) ?_
    decide
  · decide

end Controller

end StepControl

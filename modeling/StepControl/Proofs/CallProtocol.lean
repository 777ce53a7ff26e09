/-
The calls that a controller makes on the interpreters it has built.

Every call in a journal is on an interpreter that the controller built itself, and says what was asked and answered. The
protocol is in two parts: what one interpreter may be called for (`WellCalled`), and in which order the interpreters come
(`Protocol`). The next operation, whatever it is, hands over no text but its own, and ends a session that it stops or
replaces with the final reset of its interpreter (`Handled`).

From moves to runs:
- `Move.books`: every move keeps the books of the calls (`Books`).
- `protocol_of_books`: books that are kept are calls by the protocol.
- `Moves.hand_eq`: a move hands over no text but the one that is at hand.
- `perform_stopped`, `perform_restarted`: a stop, and a start over a live session, reset the interpreter that they find.

Results:
- `performAll_protocol`: in every run each interpreter is well called, and none is called after a newer one was reset; and
  whatever comes next returns, and is handled as it should be.
- `performAll_protocol_restarted`: a program that asks for input and then completes, a restart that is refused, one over a
  session that waits, and a stop.

Premises: the interpreter never breaks down (`SoundInterpreter`). What happens to the calls where it does is said in
`Breakdowns`: the call that broke down is the last.
-/
import StepControl.Proofs.CallBooks
import StepControl.Proofs.Runs

namespace StepControl

def Operation.isStop : Operation → Bool
  | .stop | .dispatch .stop => true
  | _ => false

def Operation.isStart : Operation → Bool
  | .run | .firstStep | .dispatch .run | .dispatch .firstStep => true
  | _ => false

namespace Controller

open StepControl.Action

variable {I L P : Type} {c d : Controller I L P} {j : List (Entry I)}

/-! ## Calls in a journal -/

def calls (j : List (Entry I)) : List (Nat × Call) := j.filterMap Entry.call?

@[simp] theorem calls_nil : calls ([] : List (Entry I)) = [] := rfl

@[simp] theorem calls_append (j k : List (Entry I)) : calls (j ++ k) = calls j ++ calls k := List.filterMap_append

@[simp] theorem calls_cons_called (serial : Nat) (before : I) (call : Call) (j : List (Entry I)) :
    calls (.called serial before call :: j) = (serial, call) :: calls j := rfl

@[simp] theorem calls_cons_loaded (serial : Nat) (text : String) (j : List (Entry I)) :
    calls (.loaded serial text :: j) = calls j := rfl

@[simp] theorem calls_cons_noted (note : Note) (j : List (Entry I)) : calls (.noted note :: j) = calls j := rfl

@[simp] theorem calls_cons_shown (notice : Notice) (j : List (Entry I)) : calls (.shown notice :: j) = calls j := rfl

@[simp] theorem calls_noted (notes : List Note) : calls (I := I) (notes.map .noted) = [] := by
  simp [calls, List.filterMap_map, Entry.call?, Function.comp_def]

@[simp] theorem calls_change (target : Phase) : calls (c.change target) = [] := rfl

@[simp] theorem calls_question (cell : Cell) : calls (c.question cell) = [] := rfl

@[simp] theorem calls_farewell (why : Halt) : calls (c.farewell why) = [] := by
  rcases why with _ | ⟨message⟩ | ⟨message⟩ <;> rfl

@[simp] theorem calls_stepEntries (inst : Instance I) (hooks : List Hook) (verdict : Verdict) :
    calls (c.stepEntries inst hooks verdict) = [(inst.serial, .next c.optimize hooks (some verdict))] := by
  simp [stepEntries, calls, List.filterMap_map, Entry.call?, Function.comp_def]

/-! ## Moves keep the books -/

/-- the stage that the interpreter of the session has reached -/
def stage (c : Controller I L P) : Stage :=
  match c.phase, c.pending with
  | .idle, _ | .stopped, _ => .over
  | .faulted, _ => .faulted
  | .awaitingInput, some cell => .asked cell
  | _, _ => .ready

def standing (c : Controller I L P) : Option (Nat × Stage) := c.live.map fun inst => (inst.serial, c.stage)

theorem stage_of_canStep (hp : c.phase.canStep = true) : c.stage = .ready := by
  unfold stage
  cases hq : c.phase <;> simp_all [Phase.canStep]

theorem stage_of_pending {cell : Cell} (hp : c.phase = .awaitingInput) (hc : c.pending = some cell) :
    c.stage = .asked cell := by
  rw [stage, hp, hc]

/-- where a session is alive, its interpreter can get the final reset -/
theorem next?_stage_reset (hp : c.phase.hasSession = true ∨ c.phase = .faulted) :
    c.stage.isSettled = true ∧ c.stage.next? (.reset true) = some .over := by
  unfold stage
  cases hq : c.phase <;> cases hc : c.pending <;> simp_all [Phase.hasSession] <;> exact ⟨rfl, rfl⟩

theorem stage_halted (why : Halt) : (c.halted why).stage = Stage.after none (.halt why) := by
  rcases why with _ | ⟨message⟩ | ⟨message⟩ <;> rfl

section

variable [Interpreter I] {w : List (Nat × Call)} {loads : Nat} {candidate : Bool}

/-- ending the session lets go of its interpreter, after the final reset where the session was alive -/
theorem Cleared.books (hb : Books w loads c.standing candidate) (hc : Cleared c j d) :
    Books (w ++ calls j) loads none candidate := by
  cases hc with
  | empty vacant => simpa using hb.release
  | @stopped inst machine busy live reset =>
    rw [standing, live] at hb
    obtain ⟨hs, hn⟩ := next?_stage_reset (Or.inl busy)
    simpa [teardown] using (hb.advance hs hn).release

variable [Loader L I] {now : Instant} {given : Option String}

/-- **Every move keeps the books.** -/
theorem Move.books (hb : Books w c.loads c.standing false) (hm : Move now given c j d) :
    Books (w ++ calls j) d.loads d.standing false := by
  cases hm with
  | remark note isRemark => simpa using hb
  | load text =>
    rw [calls_nil, List.append_nil]
    exact hb
  | setOptimize on =>
    rw [calls_nil, List.append_nil]
    exact hb
  | setDelay delay =>
    rw [calls_cons_noted, calls_nil, List.append_nil]
    exact hb
  | @refuse message check => exact hb.reject message
  | @start d j machine target check cleared reset kind =>
    have hloads : d.loads = c.loads + 1 := by cases cleared <;> rfl
    have hready : (d.started now { c.built with machine } target).stage = .ready := by
      obtain rfl | rfl := kind <;> rfl
    have haccepted : Books (w ++ [(c.loads + 1, .check (some .accepted))]) (c.loads + 1) c.loaded.standing true :=
      hb.accept
    have hadopted := (cleared.books haccepted).adopt
    have hcalls : calls (c.startEntries d j target) =
        [(c.loads + 1, .check (some .accepted))] ++ (calls j ++ [(c.loads + 1, .reset true)]) := by
      simp [startEntries, loadEntries, greeting, beginning, built]
    have hstanding : (d.started now { c.built with machine } target).standing = some (c.loads + 1, .ready) := by
      rw [standing, hready]
      rfl
    rw [hcalls, hstanding, show (d.started now { c.built with machine } target).loads = c.loads + 1 from hloads,
      ← List.append_assoc, ← List.append_assoc]
    exact hadopted
  | @proceed inst hooks machine phase live next silent =>
    rw [standing, live] at hb
    have hn : c.stage.next? (.next c.optimize hooks (some .proceed)) = some c.stage := by
      simp [stage_of_canStep phase, Stage.next?, Stage.after, silent]
    rw [calls_stepEntries]
    exact hb.advance (by rw [stage_of_canStep phase]; rfl) hn
  | @ask inst hooks machine cell phase live next asked =>
    rw [standing, live] at hb
    have hn : c.stage.next? (.next c.optimize hooks (some .proceed)) = some (.asked cell) := by
      simp [stage_of_canStep phase, Stage.next?, Stage.after, asked]
    rw [calls_append, calls_stepEntries, calls_question, List.append_nil]
    exact hb.advance (by rw [stage_of_canStep phase]; rfl) hn
  | @halt inst hooks machine why phase live next =>
    rw [standing, live] at hb
    have hn : c.stage.next? (.next c.optimize hooks (some (.halt why))) =
        some ((c.advanced inst machine).halted why).stage := by
      rw [stage_of_canStep phase, stage_halted]
      cases why <;> rfl
    rw [calls_append, calls_stepEntries, calls_farewell, List.append_nil]
    exact hb.advance (by rw [stage_of_canStep phase]; rfl) hn
  | @supply inst machine cell text phase hand pending live put =>
    rw [standing, live] at hb
    have hn : c.stage.next? (.put cell text (some .proceed)) = some .ready := by
      simp [stage_of_pending phase pending, Stage.next?, Stage.after]
    rw [calls_cons_called, calls_change]
    exact hb.advance (by rw [stage_of_pending phase pending]; rfl) hn
  | @supplyHalt inst machine cell text why phase hand pending live put =>
    rw [standing, live] at hb
    have hn : c.stage.next? (.put cell text (some (.halt why))) = some ((c.advanced inst machine).halted why).stage := by
      simp [stage_of_pending phase pending, Stage.next?, stage_halted]
    rw [calls_cons_called, calls_farewell]
    exact hb.advance (by rw [stage_of_pending phase pending]; rfl) hn
  | pause phase =>
    have hstep : c.phase.canStep = true := by obtain hp | hp := phase <;> rw [hp] <;> rfl
    rw [calls_change, List.append_nil]
    rw [standing, stage_of_canStep hstep] at hb
    exact hb
  | resume phase =>
    have hstep : c.phase.canStep = true := by rw [phase]; rfl
    rw [calls_change, List.append_nil]
    rw [standing, stage_of_canStep hstep] at hb
    exact hb
  | stop busy cleared =>
    have hnone : d.standing = none ∧ d.loads = c.loads := by
      cases cleared with
      | empty vacant => simp [busy] at vacant
      | stopped _ live reset => exact ⟨rfl, rfl⟩
    rw [hnone.1, hnone.2]
    exact cleared.books hb
  | @rearm inst machine phase live reset =>
    rw [standing, live] at hb
    obtain ⟨hs, hn⟩ := next?_stage_reset (Or.inr phase)
    exact (hb.advance hs hn).release

end

/-! ## What one operation calls -/

/-- the interpreter of the session that `c` has is among those that `j` resets -/
def ResetsLive (c : Controller I L P) (j : List (Entry I)) : Prop :=
  ∃ inst, c.live = some inst ∧ (inst.serial, .reset true) ∈ calls j

theorem ResetsLive.append_right {k : List (Entry I)} (h : ResetsLive c j) : ResetsLive c (j ++ k) := by
  obtain ⟨inst, hl, hreset⟩ := h
  exact ⟨inst, hl, by rw [calls_append]; exact List.mem_append_left _ hreset⟩

variable [Interpreter I]

/-- a live session that is stopped has its interpreter reset, and nothing else -/
theorem stop_calls [Presenter P] [SoundInterpreter I] (h : Steady c) (hp : c.phase.hasSession = true) :
    (stop : Drive I L P Unit).Gives c fun _ _ j =>
      ∃ inst, c.live = some inst ∧ calls j = [(inst.serial, .reset true)] := by
  obtain ⟨inst, hl⟩ := h.exists_live (Or.inl hp)
  obtain ⟨machine, hr⟩ := exists_reset inst
  rw [gives_stop (Or.inl hp) hl hr]
  exact ⟨inst, hl, by simp [teardown]⟩

variable [Loader L I] {now : Instant} {given : Option String}

/-- a move hands over the text at hand, if any -/
theorem Move.hand_eq {n : Nat} {cell : Cell} {text : String} {answer : Option Verdict} (hm : Move now given c j d)
    (hput : (n, .put cell text answer) ∈ calls j) : given = some text := by
  cases hm with
  | supply phase hand pending live put =>
    rw [calls_cons_called, calls_change] at hput
    simp at hput
    rw [hand, hput.2.2.1]
  | supplyHalt phase hand pending live put =>
    rw [calls_cons_called, calls_farewell] at hput
    simp at hput
    rw [hand, hput.2.2.1]
  | start check cleared reset kind =>
    cases cleared <;> simp [startEntries, loadEntries, greeting, beginning, teardown] at hput
  | stop busy cleared =>
    cases cleared <;> simp [teardown] at hput
  | _ => simp [refusal, loadEntries, teardown] at hput

theorem Moves.hand_eq [Presenter P] {n : Nat} {cell : Cell} {text : String} {answer : Option Verdict}
    (hm : Moves now given c j d) (hput : (n, .put cell text answer) ∈ calls j) : given = some text := by
  induction hm with
  | refl => simp at hput
  | step first _ ih =>
    rw [calls_append] at hput
    rcases List.mem_append.1 hput with hput | hput
    · exact first.hand_eq hput
    · exact ih hput

theorem resetsLive_startEntries (hp : c.phase.hasSession = true) (hc : Cleared c.loaded j d) (target : Phase) :
    ResetsLive c (c.startEntries d j target) := by
  cases hc with
  | empty vacant => exact absurd (show c.phase.hasSession = false from vacant) (by simp [hp])
  | @stopped inst machine busy live reset => exact ⟨inst, live, by simp [startEntries, loadEntries, teardown]⟩

variable [Presenter P] [SoundInterpreter I]

theorem run_resetsLive (h : Steady c) (hp : c.phase.hasSession = true)
    (hc : Interpreter.check c.built.machine = some .accepted) :
    (run now : Drive I L P (Except Error Unit)).Gives c fun _ _ j => ResetsLive c j := by
  obtain ⟨j, d, hd⟩ := h.loaded.exists_cleared
  obtain ⟨machine, hr⟩ := exists_reset c.built
  rw [gives_run_accepted hc hd hr]
  exact resetsLive_startEntries hp hd .running

theorem firstStep_resetsLive (h : Steady c) (hp : c.phase.hasSession = true)
    (hc : Interpreter.check c.built.machine = some .accepted) :
    (firstStep now : Drive I L P (Except Error Outcome)).Gives c fun _ _ j => ResetsLive c j := by
  obtain ⟨j, d, hd⟩ := h.loaded.exists_cleared
  obtain ⟨machine, hr⟩ := exists_reset c.built
  have hstart : Move now none c _ _ := .start hc hd hr (Or.inr rfl)
  have hreset := resetsLive_startEntries hp hd .steppingOnce
  rw [gives_firstStep_accepted hc hd hr]
  refine (executeStep_moves none ((hstart.steady h).hear _) rfl).imp ?_
  intro _ e k _
  split
  · exact hreset.append_right
  · exact hreset.append_right

/-- what an operation owes to the interpreter of the session that it finds, where `j` is what it writes -/
structure Handled (op : Operation) (c : Controller I L P) (j : List (Entry I)) : Prop where
  text : ∀ n cell text answer, (n, .put cell text answer) ∈ calls j → op.input? = some text
  stopped : op.isStop = true → c.phase.hasSession = true →
    ∃ inst, c.live = some inst ∧ calls j = [(inst.serial, .reset true)]
  restarted : op.isStart = true → c.phase.hasSession = true → Interpreter.check c.built.machine = some .accepted →
    ∃ inst, c.live = some inst ∧ (inst.serial, .reset true) ∈ calls j

theorem perform_stopped (h : Steady c) (hp : c.phase.hasSession = true) {op : Operation} (hop : op.isStop = true) :
    (perform now op : Drive I L P Reply).Gives c fun _ _ j =>
      ∃ inst, c.live = some inst ∧ calls j = [(inst.serial, .reset true)] := by
  have hstop := stop_calls (L := L) (P := P) h hp
  cases op with
  | stop => simpa [perform] using hstop
  | dispatch intent =>
    cases intent with
    | stop => simpa [perform, dispatch] using hstop
    | _ => simp [Operation.isStop] at hop
  | _ => simp [Operation.isStop] at hop

theorem perform_restarted (h : Steady c) (hp : c.phase.hasSession = true) {op : Operation} (hop : op.isStart = true)
    (hc : Interpreter.check c.built.machine = some .accepted) :
    (perform now op : Drive I L P Reply).Gives c fun _ _ j => ResetsLive c j := by
  cases op with
  | run => simpa [perform] using run_resetsLive h hp hc
  | firstStep => simpa [perform] using firstStep_resetsLive h hp hc
  | dispatch intent =>
    cases intent with
    | run => simpa [perform, dispatch, ResetsLive] using run_resetsLive h hp hc
    | firstStep =>
      simp only [perform, dispatch, gives_map, gives_bind, gives_read, gives_note]
      refine (firstStep_resetsLive h hp hc).imp ?_
      intro result d j hj
      cases result <;> simpa [ResetsLive] using hj
    | _ => simp [Operation.isStart] at hop
  | _ => simp [Operation.isStart] at hop

theorem perform_handled (h : Steady c) (hq : c.phase ≠ .steppingOnce) (op : Operation) :
    (perform now op : Drive I L P Reply).Gives c fun _ _ j => Handled op c j := by
  have hperform : (perform now op : Drive I L P Reply).Gives c fun _ d j =>
      Moves now op.input? c j d ∧ d.phase ≠ .steppingOnce := perform_moves h hq op
  obtain ⟨reply, hv, hmoves, -⟩ := hperform
  refine ⟨reply, hv, fun n cell text answer hput => hmoves.hand_eq hput, ?_, ?_⟩
  · intro hop hp
    have hstop : (perform now op : Drive I L P Reply).Gives c _ := perform_stopped h hp hop
    obtain ⟨_, _, hcalls⟩ := hstop
    exact hcalls
  · intro hop hp hc
    have hstart : (perform now op : Drive I L P Reply).Gives c _ := perform_restarted h hp hop hc
    obtain ⟨_, _, hreset⟩ := hstart
    exact hreset

/-! ## The protocol of a run -/

/-- the calls `w` on the interpreters 1 to `loads` keep to the protocol -/
structure Protocol (w : List (Nat × Call)) (loads : Nat) : Prop where
  built : ∀ e ∈ w, 0 < e.1 ∧ e.1 ≤ loads
  words : ∀ n, 0 < n → n ≤ loads → WellCalled (callsOf n w)
  newest : w.Pairwise fun earlier later => earlier.2.isReset = true → earlier.1 ≤ later.1

theorem protocol_of_books {loads : Nat} {live : Option (Nat × Stage)} (h : Books w loads live false) :
    Protocol w loads where
  built := h.built
  words n hn hle := by
    obtain ⟨s, hs, hsettled⟩ := h.settled n hn hle (by simp)
    exact Stage.wellCalled_of_read hs hsettled
  newest := h.order

/-- **Interpreters are called by the protocol.** Any operations on a new controller return one after the other, and the
calls they make on the interpreters keep to the protocol; the operation that comes next, whatever it is, returns as well,
hands over no other text than its own, and resets the interpreter of a session that it stops or replaces. -/
theorem performAll_protocol (config : Config) (loader : L) (presenter : P) (ops : List (Instant × Operation)) :
    (performAll ops : Drive I L P (List Reply)).Gives (ofConfig config loader presenter) fun replies c j =>
      replies.length = ops.length ∧ Protocol (calls j) c.loads ∧
        ∀ now op, (perform now op : Drive I L P Reply).Gives c fun _ _ k => Handled op c k := by
  have hmove : ∀ now given past (c : Controller I L P) j d, Steady c → Books (calls past) c.loads c.standing false →
      Move now given c j d → Books (calls (past ++ j)) d.loads d.standing false := by
    intro now given past c j d _ hb hm
    rw [calls_append]
    exact hm.books hb
  have hrun := performAll_invariant (Q := fun past c => Books (calls past) c.loads c.standing false) hmove
    (steady_ofConfig config loader presenter) (by simp [ofConfig]) [] books_nil ops
  refine hrun.imp ?_
  intro replies c j hkept
  obtain ⟨hlen, hc, hq, hb⟩ := hkept
  exact ⟨hlen, protocol_of_books hb, fun now op => perform_handled hc hq op⟩

/-- a program that asks for input and then completes, a restart that is refused, one over a session that waits, a stop -/
theorem performAll_protocol_restarted :
    let asking : Recital := { steps := [([.requestInput ⟨3⟩, .requestInput ⟨4⟩], .proceed)] }
    let ending : Recital := { asking with puts := [.halt .completion] }
    let ops : List (Instant × Operation) :=
      [(0, .firstStep), (1, .supplyInput "x"), (2, .run), (3, .tick), (4, .run), (5, .firstStep), (6, .dispatch .stop)]
    (performAll ops : Drive Recital (List Recital) Unit (List Reply)).Gives
      (ofConfig {} [ending, asking, { answer := .rejected "no" }, {}] ()) fun replies c j =>
        (replies.length = ops.length ∧ Protocol (calls j) c.loads ∧
          ∀ now op, (perform now op : Drive Recital (List Recital) Unit Reply).Gives c fun _ _ k => Handled op c k) ∧
            calls j =
              [(1, .check (some .accepted)), (1, .reset true),
                (1, .next false [.requestInput ⟨3⟩, .requestInput ⟨4⟩] (some .proceed)),
                (1, .put ⟨3⟩ "x" (some (.halt .completion))),
                (2, .check (some .accepted)), (2, .reset true),
                (2, .next false [.requestInput ⟨3⟩, .requestInput ⟨4⟩] (some .proceed)),
                (3, .check (some (.rejected "no"))),
                (4, .check (some .accepted)), (2, .reset true), (4, .reset true), (4, .next false [] (some .proceed)),
                (4, .reset true)] := by
  intro asking ending ops
  obtain ⟨replies, hv, hrest⟩ := performAll_protocol {} [ending, asking, { answer := .rejected "no" }, {}] () ops
  exact ⟨replies, hv, hrest, by decide⟩

end Controller

end StepControl

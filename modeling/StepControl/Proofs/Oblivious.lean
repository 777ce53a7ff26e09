/-
No operation looks at the interval of the timer.

The interval of a schedule is laid down and moved on by asking the timer for a tick, which no operation does. So a
controller whose timer was asked and one whose timer was not do the same: they answer the same, write the same, and end the
same but for the interval. `Controller.unlaid` forgets the interval, and an action is oblivious (`Oblivious`) where it does
the same on a controller and on what is left of it when the interval is forgotten, and always returns.

- `Oblivious.pure`, `Oblivious.bind`, `Oblivious.read_bind`, `Oblivious.update`, `Oblivious.write`, `Oblivious.demand`: one
  lemma for each way of putting actions together.
- `oblivious_executeStep`, `oblivious_supplyInput`, `oblivious_begin` and the others: one for each action that operations
  are made of; they follow the texts of the actions.
- `Oblivious.congr`: controllers that agree but for the interval do the same.
- `unlaid_poll`: to ask the timer changes nothing but the interval.

Results:
- `oblivious_dispatch`, `oblivious_tick`: all that the task of a session asks of its controller.
- `oblivious_perform`: every operation, direct or dispatched.

Premises: the interpreter never breaks down (`SoundInterpreter`), which is needed for the second half only: that the action
returns. For interpreters that may break down the same is shown by a mirror (`Cadence`).
-/
import StepControl.Controller.Operation

namespace StepControl

/-- the timer without the interval that was laid down -/
def Timer.unlaid (t : Timer) : Timer :=
  { t with schedule := t.schedule.map fun s => { s with interval := none } }

@[simp] theorem Timer.unlaid_isActive (t : Timer) : t.unlaid.isActive = t.isActive := by
  simp [unlaid, isActive]

theorem Timer.unlaid_setDelay (now : Instant) (delay : Delay) (t : Timer) :
    t.unlaid.setDelay now delay = (t.setDelay now delay).unlaid := by
  unfold Timer.setDelay
  rw [Timer.unlaid_isActive]
  split
  · rfl
  · rfl

/-- asking for a tick touches the interval only -/
theorem Timer.poll_unlaid (now : Instant) (t : Timer) : (t.poll now).2.unlaid = t.unlaid := by
  have hanswered := t.poll_answered now
  generalize t.poll now = p at hanswered ⊢
  cases hanswered with
  | ready armed laid due goes => simp [unlaid, armed]
  | pending armed laid early => simp [unlaid, armed]
  | _ => rfl

namespace Controller

variable {I L P α β : Type}

def unlaid (c : Controller I L P) : Controller I L P := { c with timer := c.timer.unlaid }

theorem unlaid_poll (now : Instant) (c : Controller I L P) :
    ({ c with timer := (c.timer.poll now).2 } : Controller I L P).unlaid = c.unlaid := by
  simp only [unlaid, Timer.poll_unlaid]

/-- the action always returns, and does not look at the interval of the timer -/
structure Oblivious (m : Drive I L P α) : Prop where
  returns : ∀ c, (m c).value.isSome = true
  unlaid : ∀ c, m c.unlaid = ⟨(m c).value, (m c).state.unlaid, (m c).journal⟩

namespace Oblivious

/-- two controllers that differ in the interval only do the same -/
theorem congr {m : Drive I L P α} (h : Oblivious m) {c d : Controller I L P} (hcd : c.unlaid = d.unlaid) :
    (m c).value = (m d).value ∧ (m c).state.unlaid = (m d).state.unlaid ∧ (m c).journal = (m d).journal := by
  have hsame : m c.unlaid = m d.unlaid := by rw [hcd]
  rw [h.unlaid, h.unlaid] at hsame
  simpa using hsame

theorem pure (a : α) : Oblivious (pure a : Drive I L P α) := ⟨fun _ => rfl, fun _ => rfl⟩

theorem bind {m : Drive I L P α} {f : α → Drive I L P β} (hm : Oblivious m) (hf : ∀ a, Oblivious (f a)) :
    Oblivious (m >>= f) := by
  constructor
  · intro c
    obtain ⟨a, ha⟩ := Option.isSome_iff_exists.1 (hm.returns c)
    rw [Action.bind_apply_some ha]
    exact (hf a).returns _
  · intro c
    obtain ⟨a, ha⟩ := Option.isSome_iff_exists.1 (hm.returns c)
    have ha' : (m c.unlaid).value = some a := by rw [hm.unlaid]; exact ha
    rw [Action.bind_apply_some ha', Action.bind_apply_some ha, hm.unlaid, (hf a).unlaid]

/-- reading the controller is harmless where what comes next does not depend on the interval -/
theorem read_bind {f : Controller I L P → Drive I L P α} (hsame : ∀ c, f c.unlaid = f c) (hf : ∀ c, Oblivious (f c)) :
    Oblivious (Action.read >>= f) := by
  constructor
  · intro c
    rw [Action.bind_apply_some rfl]
    exact (hf c).returns c
  · intro c
    rw [Action.bind_apply_some rfl, Action.bind_apply_some rfl]
    show Turn.mk _ _ _ = Turn.mk _ _ _
    simp only [Action.read_apply, hsame, (hf c).unlaid]

theorem update {f : Controller I L P → Controller I L P} (hf : ∀ c, f c.unlaid = (f c).unlaid) :
    Oblivious (Action.update f : Drive I L P Unit) :=
  ⟨fun _ => rfl, fun c => by rw [Action.update_apply, hf]; rfl⟩

theorem write (es : List (Entry I)) : Oblivious (Action.write es : Drive I L P Unit) := ⟨fun _ => rfl, fun _ => rfl⟩

theorem demand {a : Option α} (ha : a.isSome = true) : Oblivious (Action.demand a : Drive I L P α) :=
  ⟨fun _ => ha, fun _ => rfl⟩

theorem map (f : α → β) {m : Drive I L P α} (hm : Oblivious m) : Oblivious (f <$> m) := by
  rw [map_eq_pure_bind]
  exact hm.bind fun a => .pure (f a)

theorem ite {p : Prop} [Decidable p] {m k : Drive I L P α} (hm : Oblivious m) (hk : Oblivious k) :
    Oblivious (if p then m else k) := by
  split
  · exact hm
  · exact hk

end Oblivious

/-! ## The small actions -/

theorem oblivious_note (notes : List Note) : Oblivious (note notes : Drive I L P Unit) := .write _

theorem oblivious_called (inst : Instance I) (call : Call) : Oblivious (called inst call : Drive I L P Unit) := .write _

theorem oblivious_ignore (intent : Intent) : Oblivious (ignore intent : Drive I L P Unit) :=
  .read_bind (fun _ => rfl) fun _ => oblivious_note _

theorem oblivious_disarm : Oblivious (disarm : Drive I L P Unit) := .update fun _ => rfl

theorem oblivious_arm (now : Instant) : Oblivious (arm now : Drive I L P Unit) := .update fun _ => rfl

theorem oblivious_resetInstance [Interpreter I] [SoundInterpreter I] (inst : Instance I) :
    Oblivious (resetInstance inst : Drive I L P (Instance I)) :=
  .bind (oblivious_called inst _) fun _ => .bind (.demand (SoundInterpreter.reset_isSome inst.machine)) fun _ => .pure _

theorem oblivious_setDelay (now : Instant) (millis : UInt64) :
    Oblivious (setDelay now millis : Drive I L P (Except Error Unit)) := by
  unfold setDelay
  split
  · exact .bind (oblivious_note _) fun _ => .pure _
  · refine .bind (.update ?_) fun _ => .read_bind ?_ fun c => .bind (oblivious_note _) fun _ => .pure _
    · exact fun c => congrArg (fun timer => { c with timer }) (Timer.unlaid_setDelay now _ c.timer)
    · intro c
      simp only [Controller.unlaid, Timer.unlaid_isActive]

variable [Presenter P]

theorem oblivious_announce (notice : Notice) : Oblivious (announce notice : Drive I L P Unit) :=
  ⟨fun _ => rfl, fun _ => rfl⟩

theorem oblivious_announceAll (ns : List Notice) : Oblivious (announceAll ns : Drive I L P Unit) := by
  induction ns with
  | nil => exact .pure ()
  | cons n ns ih => exact (oblivious_announce n).bind fun _ => ih

theorem oblivious_goTo (target : Phase) : Oblivious (goTo target : Drive I L P Unit) := by
  refine .read_bind (fun _ => rfl) fun c => .ite (.pure ()) ?_
  refine .bind (oblivious_note _) fun _ => .bind (.update ?_) fun _ => oblivious_announce _
  exact fun _ => rfl

theorem oblivious_showFault (message : String) : Oblivious (showFault message : Drive I L P Unit) := by
  refine .read_bind (fun _ => rfl) fun c => .ite (.pure ()) ?_
  refine .bind (.update ?_) fun _ => oblivious_announce _
  exact fun _ => rfl

theorem oblivious_halt (why : Halt) : Oblivious (halt why : Drive I L P Outcome) := by
  refine .bind oblivious_disarm fun _ => .read_bind (fun _ => rfl) fun c => ?_
  rcases why with _ | ⟨message⟩ | ⟨message⟩
  · exact .bind (oblivious_note _) fun _ => .bind (oblivious_goTo _) fun _ => .pure _
  · exact .bind (oblivious_note _) fun _ => .bind (oblivious_showFault _) fun _ =>
      .bind (oblivious_goTo _) fun _ => .pure _
  · exact .bind (oblivious_note _) fun _ => .bind (oblivious_goTo _) fun _ => .pure _

theorem oblivious_follow (now : Instant) (signal : Signal) : Oblivious (follow now signal : Drive I L P Unit) := by
  cases signal with
  | blocked =>
    refine .bind (.update ?_) fun _ => oblivious_goTo _
    exact fun _ => rfl
  | resume => exact .bind (oblivious_arm now) fun _ => oblivious_goTo _

theorem oblivious_awaitInput (now : Instant) (cell : Cell) : Oblivious (awaitInput now cell : Drive I L P Unit) := by
  refine .read_bind (fun _ => rfl) fun c => .bind (oblivious_note _) fun _ => ?_
  refine .bind (.update ?_) fun _ => .bind (oblivious_follow now _) fun _ => oblivious_announce _
  exact fun _ => rfl

theorem oblivious_settleStep (now : Instant) (events : StepBuffer) :
    Oblivious (settleStep now events : Drive I L P Outcome) := by
  unfold settleStep
  split
  · exact .bind (oblivious_awaitInput now _) fun _ => .pure _
  · exact .pure _

/-! ## Operations -/

theorem oblivious_pause : Oblivious (pause : Drive I L P Unit) := by
  refine .read_bind (fun _ => rfl) fun c => ?_
  split
  · refine .bind (.update ?_) fun _ => oblivious_goTo _
    exact fun _ => rfl
  · exact .pure _
  · exact oblivious_ignore _

theorem oblivious_resume (now : Instant) : Oblivious (resume now : Drive I L P Unit) :=
  .read_bind (fun _ => rfl) fun _ => .ite (.bind (oblivious_arm now) fun _ => oblivious_goTo _) (oblivious_ignore _)

variable [Interpreter I] [SoundInterpreter I]

theorem oblivious_executeStep (now : Instant) : Oblivious (executeStep now : Drive I L P Outcome) := by
  refine .read_bind (fun _ => rfl) fun c => ?_
  cases c.live with
  | none => exact oblivious_halt _
  | some inst =>
    have hend := SoundInterpreter.next_isSome inst.machine c.optimize
    refine .bind (oblivious_called inst _) fun _ => .bind (oblivious_note _) fun _ => ?_
    refine .bind (.update ?_) fun _ => .bind (.demand hend) fun ending => .bind (.update ?_) fun _ => ?_
    · exact fun _ => rfl
    · exact fun _ => rfl
    · refine .bind (oblivious_announceAll _) fun _ => ?_
      cases ending.1 with
      | halt why => exact oblivious_halt why
      | proceed => exact oblivious_settleStep now _

theorem oblivious_step (now : Instant) : Oblivious (step now : Drive I L P (Option Outcome)) :=
  .read_bind (fun _ => rfl) fun _ =>
    .ite (.map _ (oblivious_executeStep now)) (.bind (oblivious_ignore _) fun _ => .pure _)

theorem oblivious_tick (now : Instant) : Oblivious (tick now : Drive I L P (Option Outcome)) :=
  .read_bind (fun _ => rfl) fun _ =>
    .ite (.map _ (oblivious_executeStep now)) (.bind (oblivious_note _) fun _ => .pure _)

theorem oblivious_supplyInput (now : Instant) (text : String) :
    Oblivious (supplyInput now text : Drive I L P (Except Error Unit)) := by
  refine .read_bind (fun _ => rfl) fun c => .ite (.bind (oblivious_note _) fun _ => .pure _) ?_
  cases c.live with
  | none => exact .pure _
  | some inst =>
    refine .bind (.update ?_) fun _ => ?_
    · exact fun _ => rfl
    · cases hg : c.gate.pending with
      | none => simpa [Gate.supply, hg] using .pure _
      | some cell =>
        have hput := SoundInterpreter.put_isSome inst.machine cell text
        simp only [Gate.supply, hg]
        refine .bind (oblivious_called inst _) fun _ => .bind (.demand hput) fun answer => ?_
        refine .bind (.update ?_) fun _ => ?_
        · exact fun _ => rfl
        · cases answer.1 with
          | proceed => exact .bind (oblivious_follow now _) fun _ => .pure _
          | halt why => exact .bind (oblivious_halt why) fun _ => .pure _

theorem oblivious_stop : Oblivious (stop : Drive I L P Unit) := by
  refine .read_bind (fun _ => rfl) fun c => ?_
  split
  · exact oblivious_ignore _
  · exact oblivious_ignore _
  · refine .bind oblivious_disarm fun _ => ?_
    cases c.live with
    | none => exact .bind (oblivious_note _) fun _ => oblivious_goTo _
    | some inst =>
      refine .bind (.update ?_) fun _ => .bind (oblivious_resetInstance inst) fun _ => ?_
      · exact fun _ => rfl
      · exact .bind (oblivious_note _) fun _ => oblivious_goTo _

theorem oblivious_begin (inst : Instance I) : Oblivious (begin inst : Drive I L P Unit) := by
  refine .read_bind (fun _ => rfl) fun c => .ite (.bind oblivious_stop fun _ => ?_) ?_
  -- the session starts in the same way whether another one was stopped for it or not
  all_goals
    refine .bind oblivious_disarm fun _ => .bind (oblivious_resetInstance inst) fun fresh => ?_
    refine .read_bind (fun _ => rfl) fun c => .bind (oblivious_note _) fun _ => ?_
    refine .bind (.update ?_) fun _ => oblivious_announce _
    exact fun _ => rfl

variable [Loader L I]

theorem oblivious_prepare : Oblivious (prepare : Drive I L P (Except Error (Instance I))) := by
  refine .read_bind (fun _ => rfl) fun c => .bind (.update ?_) fun _ => .bind (.write _) fun _ => ?_
  · exact fun _ => rfl
  · have hcheck := SoundInterpreter.check_isSome (Loader.load c.loader c.program).1
    refine .bind (oblivious_called _ _) fun _ => .bind (.demand hcheck) fun answer => ?_
    cases answer with
    | accepted => exact .pure _
    | rejected message => exact .bind (oblivious_note _) fun _ => .bind (oblivious_announce _) fun _ => .pure _

theorem oblivious_run (now : Instant) : Oblivious (run now : Drive I L P (Except Error Unit)) := by
  refine .bind oblivious_prepare fun prepared => ?_
  cases prepared with
  | error e => exact .pure _
  | ok inst =>
    exact .bind (oblivious_begin inst) fun _ => .bind (oblivious_arm now) fun _ => .bind (oblivious_goTo _) fun _ => .pure _

theorem oblivious_firstStep (now : Instant) : Oblivious (firstStep now : Drive I L P (Except Error Outcome)) := by
  refine .bind oblivious_prepare fun prepared => ?_
  cases prepared with
  | error e => exact .pure _
  | ok inst =>
    refine .bind (oblivious_begin inst) fun _ => .bind (oblivious_goTo _) fun _ => ?_
    refine .bind (oblivious_executeStep now) fun outcome => .read_bind (fun _ => rfl) fun c => ?_
    exact .ite (.bind (oblivious_goTo _) fun _ => .pure _) (.pure _)

/-- **No dispatch looks at the interval, or breaks down.** -/
theorem oblivious_dispatch (now : Instant) (intent : Intent) :
    Oblivious (dispatch now intent : Drive I L P (Except Error Unit)) := by
  refine .read_bind (fun _ => rfl) fun c => .bind (oblivious_note _) fun _ => ?_
  cases intent with
  | load text =>
    refine .bind (.update ?_) fun _ => .pure _
    exact fun _ => rfl
  | setOptimize on =>
    refine .bind (.update ?_) fun _ => .pure _
    exact fun _ => rfl
  | run => exact oblivious_run now
  | firstStep =>
    refine .bind (oblivious_firstStep now) fun result => ?_
    cases result with
    | error e => exact .pure _
    | ok outcome => exact .pure _
  | step => exact .bind (oblivious_step now) fun _ => .pure _
  | pause => exact .bind oblivious_pause fun _ => .pure _
  | resume => exact .bind (oblivious_resume now) fun _ => .pure _
  | stop => exact .bind oblivious_stop fun _ => .pure _
  | supplyInput text => exact oblivious_supplyInput now text
  | setDelay millis => exact oblivious_setDelay now millis

/-- **No operation looks at the interval, or breaks down.** -/
theorem oblivious_perform (now : Instant) (op : Operation) : Oblivious (perform now op : Drive I L P Reply) := by
  cases op with
  | load text =>
    refine .bind (.update ?_) fun _ => .pure _
    exact fun _ => rfl
  | setOptimize on =>
    refine .bind (.update ?_) fun _ => .pure _
    exact fun _ => rfl
  | run => exact .map _ (oblivious_run now)
  | firstStep => exact .map _ (oblivious_firstStep now)
  | step => exact .map _ (oblivious_step now)
  | pause => exact .bind oblivious_pause fun _ => .pure _
  | resume => exact .bind (oblivious_resume now) fun _ => .pure _
  | stop => exact .bind oblivious_stop fun _ => .pure _
  | supplyInput text => exact .map _ (oblivious_supplyInput now text)
  | setDelay millis => exact .map _ (oblivious_setDelay now millis)
  | tick => exact .map _ (oblivious_tick now)
  | dispatch intent => exact .map _ (oblivious_dispatch now intent)

end Controller

end StepControl

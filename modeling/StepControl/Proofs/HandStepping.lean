/-
A session driven by the timer and a session driven by hand.

The timer drives a session with `run` and then tick after tick; by hand it is `firstStep` and then step after step. Requests
for input are answered on both sides with the texts of a list, one after the other, and by hand the session is paused
whenever an input set it running (`byTimer`, `byHand`).

The likeness that carries it lets the session by hand trail behind (`trailing`): while the other is running it is in a slow
phase, and otherwise both are in the same. The slow phase is
- `steppingOnce` during the first step,
- `running` itself between an input and the pause after it,
- `paused` at all other times.

From one deed to all of them:
- `alike_tick_step`: a tick on the one side and a step on the other come to the same.
- `supply_agrees`: so does an input, with the pause after it.
- `alike_carryOut`: so do any number of deeds, by induction on them.
- `runAndTick_agrees`: so do the starts, with the first tick and the first step.

Results:
- `runAndTick_sameCourse`: both take the same course (`SameCourse`), whatever the program, the interpreter, the texts, the
  instants and the number of steps: the same outcomes, the same calls, the same announcements but for those of phases.
- `runAndTick_sameCourse_asked`: a program that asks for input on the way.

Premises: the controllers are alike but for their timers to begin with (`abreast`). The interpreter may break down. As the
deeds may end anywhere, the courses are the same after every step and every answer.
-/
import StepControl.Proofs.Alike

namespace StepControl

open StepControl.Action

/-! ## Two ways to drive a session -/

/-- what there is to do about a session -/
inductive Deed where
  /-- take it a step further -/
  | advance
  /-- answer its request for input, if there is one, with the next text -/
  | answer
  deriving DecidableEq, Repr

/-- a way to drive a session: how it gets a step further, and how it gets an input -/
structure Driver (I L P : Type) where
  advance : Instant → Drive I L P (Option Outcome)
  supply : Instant → String → Drive I L P Unit

/-- deeds one after the other; gives what the steps came to -/
def Driver.carryOut {I L P : Type} (w : Driver I L P) :
    List (Instant × Deed) → List String → Drive I L P (List (Option Outcome))
  | [], _ => pure []
  | (now, .advance) :: rest, texts => do
    let outcome ← w.advance now
    let outcomes ← w.carryOut rest texts
    pure (outcome :: outcomes)
  | (_, .answer) :: rest, [] => w.carryOut rest []
  | (now, .answer) :: rest, text :: texts => do
    let c ← Action.read
    if c.phase = .awaitingInput then
      w.supply now text
      w.carryOut rest texts
    else w.carryOut rest (text :: texts)

namespace Controller

variable {I L P L' P' : Type} [Interpreter I] [Loader L I] [Loader L' I] [Presenter P] [Presenter P']

/-- the timer ticks, and an input sets the session running -/
def byTimer : Driver I L P where
  advance := tick
  supply now text := do
    let _ ← supplyInput now text
    pure ()

/-- steps are asked for, and a session that an input set running is paused -/
def byHand : Driver I L P where
  advance := step
  supply now text := do
    let _ ← supplyInput now text
    let c ← Action.read
    if c.phase = .running then pause

/-- start a session for the timer, and let the timer drive it -/
def runAndTick (start : Instant) (deeds : List (Instant × Deed)) (texts : List String) :
    Drive I L P (Except Error (List (Option Outcome))) := do
  match ← run start with
  | .error e => pure (.error e)
  | .ok () =>
    let outcomes ← byTimer.carryOut deeds texts
    pure (.ok outcomes)

/-- start a session with its first step, and drive it by hand -/
def stepByHand (first : Instant) (deeds : List (Instant × Deed)) (texts : List String) :
    Drive I L P (Except Error (List (Option Outcome))) := do
  match ← firstStep first with
  | .error e => pure (.error e)
  | .ok outcome =>
    let outcomes ← byHand.carryOut deeds texts
    pure (.ok (some outcome :: outcomes))

/-- controllers with the same interpreter and the same request for input, in the same phase unless the one is running and the
other paused -/
structure SameEnd (c : Controller I L P) (d : Controller I L' P') : Prop where
  phase : c.phase = d.phase ∨ c.phase = .running ∧ d.phase = .paused
  pending : c.pending = d.pending
  live : c.live = d.live

/-- two turns with the same value, the same calls on the interpreters and the same announcements but for those of phases -/
structure SameCourse {α : Type} (t : Turn (Controller I L P) (Entry I) α) (t' : Turn (Controller I L' P') (Entry I) α) :
    Prop where
  value : t.value = t'.value
  calls : calls t.journal = calls t'.journal
  notices : (notices t.journal).filter (!·.isPhase) = (notices t'.journal).filter (!·.isPhase)
  ended : t.value.isSome = true → SameEnd t.state t'.state

end Controller

/-! ## Likenesses -/

/-- in the same phase, and alike in everything but the timers; neither instants nor announcements of phases count -/
def abreast : Likeness where
  phases p q := p = q
  timers _ _ := True
  instants _ _ := True
  tells := false
  first := 0
  second := 0
  phases_still _ := rfl
  phases_apart h := Or.inl h
  timers_stop _ := trivial
  timers_start _ _ := trivial

/-- the first is running and the second is in the phase `slow`, or both are in the same phase, in which no step is taken -/
def trailing (slow : Phase) (hslow : slow.canStep = true) : Likeness :=
  { abreast with
    phases := fun p q => p = .running ∧ q = slow ∨ p = q ∧ p.canStep = false
    phases_still := fun hp => Or.inr ⟨rfl, hp⟩
    phases_apart := by
      rintro p q (⟨rfl, rfl⟩ | ⟨hsame, -⟩)
      · exact Or.inr ⟨rfl, hslow, rfl⟩
      · exact Or.inl hsame }

namespace Controller

variable {I L P L' P' : Type} [Loader L I] [Loader L' I] [Presenter P] [Presenter P'] {c : Controller I L P}
  {d : Controller I L' P'} {now now' : Instant}

/-! ## One session running, the other slow -/

/-- the action brings the controller to a phase; nothing else that is compared changes, and nothing is seen of it -/
def Enters (target : Phase) (m : Drive I L P Unit) (c : Controller I L P) : Prop :=
  ∃ timer presenter j, m c = ⟨some (), { c with phase := target, timer, presenter }, j⟩ ∧
    j.filterMap (Entry.seen false 0) = []

omit [Loader L I] in
theorem enters_goTo (target : Phase) (c : Controller I L P) : Enters target (goTo target) c := by
  by_cases hp : c.phase = target
  · exact ⟨c.timer, c.presenter, [], by rw [goTo_apply, if_pos hp, ← hp], rfl⟩
  · exact ⟨c.timer, _, _, by rw [goTo_apply, if_neg hp], rfl⟩

omit [Loader L I] in
theorem enters_retimed (f : Timer → Timer) (target : Phase) (c : Controller I L P) :
    Enters target (Action.update (fun c => { c with timer := f c.timer }) >>= fun _ => goTo target) c := by
  obtain ⟨timer, p, j, hgo, hj⟩ := enters_goTo target { c with timer := f c.timer }
  refine ⟨timer, p, j, ?_, hj⟩
  rw [bind_apply, update_apply]
  simp only [hgo, List.nil_append]

omit [Loader L I] in
theorem enters_paused (hp : c.phase = .running) : Enters .paused pause c := by
  obtain ⟨timer, p, j, hgo, hj⟩ := enters_retimed Timer.stop .paused c
  refine ⟨timer, p, j, ?_, hj⟩
  rw [← hgo, pause, bind_apply, read_apply]
  simp only [hp, List.nil_append]

omit [Presenter P] [Presenter P'] in
/-- the one session is set running, the other is about to take its first step -/
theorem launch_agrees {m : Drive I L P Unit} {k : Drive I L' P' Unit} (h : abreast.Joins c d) (hm : Enters .running m c)
    (hk : Enters .steppingOnce k d) : Agrees (Entry.seen false 0) (Entry.seen false 0) m c k d
      fun _ _ c' d' => c'.phase = .running ∧ (trailing .steppingOnce rfl).Joins c' d' := by
  obtain ⟨timer, p, j, hm, hj⟩ := hm
  obtain ⟨timer', p', j', hk, hj'⟩ := hk
  exact agrees_of_eq hm hk (hj.trans hj'.symm) ⟨rfl, { h with phase := Or.inl ⟨rfl, rfl⟩, timer := trivial }⟩

omit [Presenter P] [Presenter P'] in
/-- a slow session is paused where it was slow for another reason -/
theorem rest_agrees {slow : Phase} {hslow : slow.canStep = true} {rest : Drive I L' P' Unit}
    (h : (trailing slow hslow).Joins c d) (hrest : d.phase = slow → Enters .paused rest d) :
    Agrees (Entry.seen false 0) (Entry.seen false 0) (pure () : Drive I L P Unit) c
      (Action.read >>= fun d => if d.phase = slow then rest else pure ()) d
      fun _ _ c' d' => (trailing .paused rfl).Joins c' d' := by
  have hread : (Action.read >>= fun d => if d.phase = slow then rest else pure () : Drive I L' P' Unit) d =
      if d.phase = slow then rest d else ⟨some (), d, []⟩ :=
    Action.ite_apply (d.phase = slow) rest (pure ()) d
  rcases h.phase with ⟨hc, hd⟩ | ⟨hsame, hstill⟩
  · obtain ⟨timer, p, j, hpaused, hj⟩ := hrest hd
    rw [if_pos hd, hpaused] at hread
    exact agrees_of_eq rfl hread hj.symm { h with phase := Or.inl ⟨hc, rfl⟩, timer := trivial }
  · have hd : d.phase ≠ slow := by
      rintro rfl
      simp [hsame, hslow] at hstill
    rw [if_neg hd] at hread
    exact agrees_of_eq rfl hread rfl { h with phase := Or.inr ⟨hsame, hstill⟩ }

variable [Interpreter I]

/-- a tick of the one session comes to the same as a step of the other -/
theorem alike_tick_step :
    (trailing .paused rfl).Alike Eq (tick now : Drive I L P (Option Outcome))
      (step now' : Drive I L' P' (Option Outcome)) := by
  refine .read_bind fun c d h => .ite ?_ (alike_executeStep.map fun _ _ => congrArg some) ?_
  · rcases h.phase with ⟨hc, hd⟩ | ⟨hsame, hstill⟩
    · simp [hc, hd]
    · rw [← hsame]
      constructor <;> (intro hp; simp [hp, Phase.canStep] at hstill)
  · exact fun c d hcd => agrees_of_eq rfl rfl rfl ⟨rfl, hcd⟩

/-- an input comes to the same on both sides, with the pause that follows by hand -/
theorem supply_agrees (h : (trailing .paused rfl).Joins c d) (hp : c.phase = .awaitingInput) (text : String) :
    Agrees (Entry.seen false 0) (Entry.seen false 0) ((byTimer : Driver I L P).supply now text) c
      ((byHand : Driver I L' P').supply now' text) d fun _ _ c' d' => (trailing .paused rfl).Joins c' d' := by
  have hsame : c.phase = d.phase := hp.trans ((h.phase_iff rfl).1 hp).symm
  have hlevel : (trailing .running rfl).Joins c d := { h with phase := Or.inr ⟨hsame, by rw [hp]; rfl⟩ }
  refine (alike_supplyInput (Or.inl ⟨rfl, rfl⟩) trivial text c d hlevel).bind ?_
  intro _ _ c d hsupplied
  exact rest_agrees hsupplied.2 enters_paused

/-- what is done about the sessions comes to the same on both sides -/
theorem alike_carryOut {deeds deeds' : List (Instant × Deed)} (h : deeds.map Prod.snd = deeds'.map Prod.snd)
    (texts : List String) :
    (trailing .paused rfl).Alike Eq ((byTimer : Driver I L P).carryOut deeds texts)
      ((byHand : Driver I L' P').carryOut deeds' texts) := by
  induction deeds generalizing deeds' texts with
  | nil =>
    obtain rfl : deeds' = [] := List.map_eq_nil_iff.1 h.symm
    exact .pure rfl
  | cons first rest ih =>
    obtain ⟨now, deed⟩ := first
    obtain ⟨⟨now', deed'⟩, rest', rfl, hdeed, hrest⟩ := List.map_eq_cons_iff.1 h.symm
    obtain rfl : deed' = deed := hdeed
    cases deed' with
    | advance => exact .bind_eq alike_tick_step fun _ => .bind_eq (ih hrest.symm texts) fun _ => .pure rfl
    | answer =>
      cases texts with
      | nil => exact ih hrest.symm []
      | cons text texts =>
        intro c d h
        rw [Driver.carryOut, Driver.carryOut, agrees_read_bind]
        by_cases hp : c.phase = .awaitingInput
        · rw [if_pos hp, if_pos ((h.phase_iff rfl).1 hp)]
          refine (supply_agrees h hp text).bind ?_
          intro _ _ c d hsupplied
          exact ih hrest.symm texts c d hsupplied
        · rw [if_neg hp, if_neg (mt (h.phase_iff rfl).2 hp)]
          exact ih hrest.symm (text :: texts) c d h

omit [Loader L I] in
theorem takeFirstStep_eq : (takeFirstStep now : Drive I L P (Except Error Outcome)) =
    (executeStep now >>= fun outcome =>
      (Action.read >>= fun c => if c.phase = .steppingOnce then goTo .paused else pure ()) >>= fun _ =>
      pure (.ok outcome)) := by
  refine bind_congr fun outcome => ?_
  rw [bind_assoc]
  refine bind_congr fun c => ?_
  split
  · rfl
  · rw [pure_bind]

/-- the first tick of a session comes to the same as the first step by hand, with the rest that follows -/
theorem tick_agrees (h : (trailing .steppingOnce rfl).Joins c d) (hp : c.phase = .running) :
    Agrees (Entry.seen false 0) (Entry.seen false 0) (tick now : Drive I L P (Option Outcome)) c
      (takeFirstStep now' : Drive I L' P' (Except Error Outcome)) d
      fun outcome started c' d' => (∃ o, outcome = some o ∧ started = .ok o) ∧ (trailing .paused rfl).Joins c' d' := by
  rw [agrees_congr (tick_running hp) rfl, map_eq_pure_bind, takeFirstStep_eq]
  refine (alike_executeStep c d h).bind ?_
  rintro outcome _ c d ⟨rfl, hstepped⟩
  rw [← pure_bind () fun _ => (pure (some outcome) : Drive I L P (Option Outcome))]
  refine (rest_agrees hstepped fun _ => enters_goTo .paused d).bind ?_
  intro _ _ c d hrested
  exact agrees_of_eq rfl rfl rfl ⟨⟨outcome, rfl, rfl⟩, hrested⟩

/-- a session that is set running, and its first tick, come to the same as the start of a session with its first step -/
theorem runAndTick_eq (start first : Instant) (deeds : List (Instant × Deed)) (texts : List String) :
    (runAndTick start ((first, .advance) :: deeds) texts : Drive I L P (Except Error (List (Option Outcome)))) =
      (prepare >>= fun prepared =>
        match prepared with
        | .error e => pure (.error e)
        | .ok inst =>
          begin inst >>= fun _ => (arm start >>= fun _ => goTo .running) >>= fun _ => tick first >>= fun outcome =>
            byTimer.carryOut deeds texts >>= fun outcomes => pure (.ok (outcome :: outcomes))) := by
  rw [runAndTick, run_eq, bind_assoc]
  refine bind_congr fun prepared => ?_
  cases prepared with
  | error e => rfl
  | ok inst => simp [Driver.carryOut, byTimer, bind_assoc]

theorem stepByHand_eq (first : Instant) (deeds : List (Instant × Deed)) (texts : List String) :
    (stepByHand first deeds texts : Drive I L P (Except Error (List (Option Outcome)))) =
      (prepare >>= fun prepared =>
        match prepared with
        | .error e => pure (.error e)
        | .ok inst =>
          begin inst >>= fun _ => goTo .steppingOnce >>= fun _ => takeFirstStep first >>= fun started =>
            match started with
            | .error e => pure (.error e)
            | .ok outcome => byHand.carryOut deeds texts >>= fun outcomes => pure (.ok (some outcome :: outcomes))) := by
  rw [stepByHand, firstStep_eq, bind_assoc]
  refine bind_congr fun prepared => ?_
  cases prepared with
  | error e => rfl
  | ok inst => simp only [bind_assoc]

/-- at the end the sessions are abreast where the program was rejected, and else the one by hand trails behind -/
theorem runAndTick_agrees (h : abreast.Joins c d) (start first first' : Instant) {deeds deeds' : List (Instant × Deed)}
    (hdeeds : deeds.map Prod.snd = deeds'.map Prod.snd) (texts : List String) :
    Agrees (Entry.seen false 0) (Entry.seen false 0)
      (runAndTick start ((first, .advance) :: deeds) texts : Drive I L P (Except Error (List (Option Outcome)))) c
      (stepByHand first' deeds' texts : Drive I L' P' (Except Error (List (Option Outcome)))) d
      fun outcomes outcomes' c' d' => outcomes = outcomes' ∧ (abreast.Joins c' d' ∨ (trailing .paused rfl).Joins c' d') := by
  rw [runAndTick_eq, stepByHand_eq]
  refine (alike_prepare c d h).bind ?_
  rintro prepared prepared' c d ⟨hprepared, hjoined⟩
  cases hprepared with
  | error e => exact agrees_of_eq rfl rfl rfl ⟨rfl, Or.inl hjoined⟩
  | ok hsame =>
    refine (alike_begin hsame c d hjoined).bind ?_
    rintro _ _ c d ⟨-, hbegun⟩
    refine (launch_agrees hbegun (enters_retimed _ _ c) (enters_goTo _ d)).bind ?_
    rintro _ _ c d ⟨hrunning, hlaunched⟩
    refine (tick_agrees hlaunched hrunning).bind ?_
    rintro _ _ c d ⟨⟨outcome, rfl, rfl⟩, hticked⟩
    refine (alike_carryOut hdeeds texts c d hticked).bind ?_
    rintro outcomes _ c d ⟨rfl, hend⟩
    exact agrees_of_eq rfl rfl rfl ⟨rfl, Or.inr hend⟩

omit [Presenter P] [Presenter P'] [Interpreter I] in
theorem sameEnd_of_joins (h : abreast.Joins c d ∨ (trailing .paused rfl).Joins c d) : SameEnd c d := by
  have hlive : ∀ {l l' : Option (Instance I)}, Option.Rel (SameInstance 0 0) l l' → l = l' := by
    intro l l' hl
    cases hl with
    | none => rfl
    | some hsame => rw [hsame.eq]
  rcases h with h | h
  · exact ⟨Or.inl h.phase, congrArg Gate.pending h.gate, hlive h.live⟩
  · refine ⟨?_, congrArg Gate.pending h.gate, hlive h.live⟩
    rcases h.phase with hslow | ⟨hsame, -⟩
    · exact Or.inr hslow
    · exact Or.inl hsame

/-- **Timer-driven and manual stepping take the same course.** On controllers that are alike but for their timers, with the
same deeds at whatever instants, and with any texts to answer the requests with. The deeds may end anywhere, so the courses
are the same after every step and after every answer; and the interpreter may break down. -/
theorem runAndTick_sameCourse (h : abreast.Joins c d) (start first first' : Instant) {deeds deeds' : List (Instant × Deed)}
    (hdeeds : deeds.map Prod.snd = deeds'.map Prod.snd) (texts : List String) :
    SameCourse
      ((runAndTick start ((first, .advance) :: deeds) texts : Drive I L P (Except Error (List (Option Outcome)))) c)
      ((stepByHand first' deeds' texts : Drive I L' P' (Except Error (List (Option Outcome)))) d) := by
  obtain ⟨hjournal, hvalue⟩ := runAndTick_agrees h start first first' hdeeds texts
  generalize (runAndTick start ((first, .advance) :: deeds) texts : Drive I L P _) c = t at hjournal hvalue ⊢
  generalize (stepByHand first' deeds' texts : Drive I L' P' _) d = t' at hjournal hvalue ⊢
  have hcalls := congrArg (List.filterMap Entry.call?) hjournal
  have hnotices := congrArg (List.filterMap Entry.notice?) hjournal
  rw [calls_seen, calls_seen] at hcalls
  rw [notices_seen, notices_seen] at hnotices
  obtain ⟨value, state, journal⟩ := t
  obtain ⟨value', state', journal'⟩ := t'
  cases hvalue with
  | none => exact ⟨rfl, by simpa using hcalls, by simpa using hnotices, by simp⟩
  | some hend =>
    obtain ⟨rfl, hjoined⟩ := hend
    exact ⟨rfl, by simpa using hcalls, by simpa using hnotices, fun _ => sameEnd_of_joins hjoined⟩

/-- a session that asks for input and completes after it -/
theorem runAndTick_sameCourse_asked :
    abreast.Joins
        (ofConfig {} [{ steps := [([.output 65, .requestInput ⟨3⟩], .proceed), ([], .halt .completion)] }] () :
          Controller Recital (List Recital) Unit)
        (ofConfig {} [{ steps := [([.output 65, .requestInput ⟨3⟩], .proceed), ([], .halt .completion)] }] {} :
          Controller Recital (List Recital) Channel) ∧
      SameCourse
        ((runAndTick 0 [(2, .advance), (3, .answer), (5, .advance), (6, .advance)] ["a"] :
            Drive Recital (List Recital) Unit (Except Error (List (Option Outcome))))
          (ofConfig {} [{ steps := [([.output 65, .requestInput ⟨3⟩], .proceed), ([], .halt .completion)] }] ()))
        ((stepByHand 0 [(1, .answer), (1, .advance), (1, .advance)] ["a"] :
            Drive Recital (List Recital) Channel (Except Error (List (Option Outcome))))
          (ofConfig {} [{ steps := [([.output 65, .requestInput ⟨3⟩], .proceed), ([], .halt .completion)] }] {})) ∧
      ((stepByHand 0 [(1, .answer), (1, .advance), (1, .advance)] ["a"] :
            Drive Recital (List Recital) Channel (Except Error (List (Option Outcome))))
          (ofConfig {} [{ steps := [([.output 65, .requestInput ⟨3⟩], .proceed), ([], .halt .completion)] }] {})).value =
        some (.ok [some (.inputRequested ⟨3⟩), some .completed, none]) := by
  have hjoins : abreast.Joins
      (ofConfig {} [{ steps := [([.output 65, .requestInput ⟨3⟩], .proceed), ([], .halt .completion)] }] () :
        Controller Recital (List Recital) Unit)
      (ofConfig {} [{ steps := [([.output 65, .requestInput ⟨3⟩], .proceed), ([], .halt .completion)] }] {} :
        Controller Recital (List Recital) Channel) :=
    ⟨rfl, trivial, fun _ => rfl, rfl, Nat.le_refl 0, .none, rfl, rfl, rfl, rfl, rfl⟩
  exact ⟨hjoins, runAndTick_sameCourse hjoins 0 2 0 (by decide) ["a"], rfl⟩

end Controller

end StepControl

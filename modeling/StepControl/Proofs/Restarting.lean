/-
Restarting is stopping and starting.

Where a session is live, the beginning of a new one is a stop and then the beginning of one in place of none. The stop does
not touch what the loader is called with, so it makes no difference whether it comes after the loader call and the check of
the program or before.

- `begin_live`: the beginning over a live session is a stop, and the beginning in place of none, as actions.
- `start_swapped`: so a start over a live session and a stop followed by the start have the same value, lead to the same
  controller, and did the same but for that order (`Swapped`).
- `start_breaks_swapped`: where the reset of the old interpreter breaks down both do, and the start has called the loader by
  then.
- `start_rearmed`: after a fault there is something to stop as well. The stop resets the faulted interpreter and announces
  `idle`, which the start alone does not (`Rearmed`).
- `stopThen_vacant`: where there is no session there is nothing to stop, and the two coincide.

Results:
- `restart_eq_stop_start`: all of this for a controller with any history, by its phase.
- `restart_eq_stop_start_waiting`: a restart of a session that waits for input.

Premises: the program to be started parses. A start that is refused leaves a live session as it is, and then the two differ.
The interpreter may break down.
-/
import StepControl.Proofs.FreshSession
import StepControl.Proofs.Onlookers
import StepControl.Script

namespace StepControl

open StepControl.Action

namespace Controller

variable {I L P : Type} [Interpreter I] [Loader L I] [Presenter P] {c d : Controller I L P} {now : Instant}
  {op : Operation} {inst : Instance I} {machine : I}

/-! ## Starts in two parts -/

/-- what a start goes on with when its session has begun -/
def launch (now : Instant) : Operation → Drive I L P Reply
  | .run => do
    arm now
    goTo .running
    pure (.result (.ok ()))
  | _ => do
    goTo .steppingOnce
    .started <$> takeFirstStep now

/-- a start whose program parses: the loader call and the check, and then the session -/
theorem start_accepted (now : Instant) (hop : op = .run ∨ op = .firstStep)
    (hc : Interpreter.check c.built.machine = some .accepted) :
    (perform now op : Drive I L P Reply) c =
      let t := (begin c.built >>= fun _ => launch now op : Drive I L P Reply) c.loaded
      ⟨t.value, t.state, c.loadEntries .accepted ++ t.journal⟩ := by
  obtain rfl | rfl := hop
  · simp only [perform, run, launch, map_eq_pure_bind, bind_assoc]
    rw [bind_apply, prepare_accepted hc]
    simp only [bind_assoc, pure_bind]
  · simp only [perform, firstStep_eq, launch, map_eq_pure_bind, bind_assoc]
    rw [bind_apply, prepare_accepted hc]
    simp only [bind_assoc]

omit [Loader L I] in
/-- a stop of a session that is not over, of an interpreter that answers -/
theorem stop_returns {target : Phase} (hp : c.phase.hasSession = true ∨ c.phase = .faulted) (ht : c.stopTarget = target)
    (hl : c.live = some inst) (hr : Interpreter.reset inst.machine = some machine) : (stop : Drive I L P Unit) c =
      ⟨some (), (c.ended target).hear (c.teardown inst target), c.teardown inst target⟩ := by
  refine eq_of_gives ((gives_stop hp hl hr).2 ?_)
  rw [ht]
  exact ⟨rfl, rfl, rfl⟩

omit [Loader L I] in
theorem stop_live (hp : c.phase.hasSession = true) (hl : c.live = some inst)
    (hr : Interpreter.reset inst.machine = some machine) : (stop : Drive I L P Unit) c =
      ⟨some (), (c.ended .stopped).hear (c.teardown inst .stopped), c.teardown inst .stopped⟩ := by
  have hfine : c.phase ≠ .faulted := by
    intro hf
    simp [hf, Phase.hasSession] at hp
  exact stop_returns (Or.inl hp) (if_neg hfine) hl hr

omit [Loader L I] in
theorem stop_faulted (hp : c.phase = .faulted) (hl : c.live = some inst)
    (hr : Interpreter.reset inst.machine = some machine) : (stop : Drive I L P Unit) c =
      ⟨some (), (c.ended .idle).hear (c.teardown inst .idle), c.teardown inst .idle⟩ :=
  stop_returns (Or.inr hp) (if_pos hp) hl hr

/-- the beginning of a session, once the one before it is over -/
def inaugurate (inst : Instance I) : Drive I L P Unit := do
  disarm
  let fresh ← resetInstance inst
  let c ← Action.read
  let session := c.session.getD 0 + 1
  note [.sessionStarted session c.delay]
  Action.update fun c => { c with session := some session, live := some fresh, errorShown := false }
  announce .reset

omit [Loader L I] in
theorem begin_eq (inst : Instance I) (c : Controller I L P) : (begin inst : Drive I L P Unit) c =
    if c.phase.hasSession = true then (stop >>= fun _ => inaugurate inst : Drive I L P Unit) c
    else (inaugurate inst : Drive I L P Unit) c :=
  Action.ite_apply _ _ _ c

omit [Loader L I] in
/-- **The beginning of a session over a live one** is a stop, and the beginning of a session in place of none. -/
theorem begin_live (hp : c.phase.hasSession = true) (hl : c.live = some inst)
    (hr : Interpreter.reset inst.machine = some machine) (fresh : Instance I) :
    (begin fresh : Drive I L P Unit) c = (stop >>= fun _ => begin fresh : Drive I L P Unit) c := by
  have hover : ((c.ended .stopped).hear (c.teardown inst .stopped)).phase.hasSession = false := rfl
  have hnext : (begin fresh : Drive I L P Unit) ((c.ended .stopped).hear (c.teardown inst .stopped)) =
      (inaugurate fresh : Drive I L P Unit) ((c.ended .stopped).hear (c.teardown inst .stopped)) := by
    rw [begin_eq, if_neg (by rw [hover]; decide)]
  rw [begin_eq, if_pos hp, bind_apply, bind_apply, stop_live hp hl hr]
  simp only [hnext]

/-! ## Two orders of the same deeds -/

/-- two turns with the same value and the same end, of which the one did `a` and then `b`, the other `b` and then `a`, and
both the same afterwards -/
structure Swapped {α : Type} (a b : List (Entry I)) (t t' : Turn (Controller I L P) (Entry I) α) : Prop where
  value : t.value = t'.value
  state : t.state = t'.state
  journal : ∃ rest, t.journal = a ++ (b ++ rest) ∧ t'.journal = b ++ (a ++ rest)

def stopThen (now : Instant) (op : Operation) : Drive I L P Reply := do
  let _ ← perform now .stop
  perform now op

theorem stopThen_of_stop {j : List (Entry I)} (now : Instant) (op : Operation)
    (h : (stop : Drive I L P Unit) c = ⟨some (), d, j⟩) :
    (stopThen now op : Drive I L P Reply) c =
      let t := (perform now op : Drive I L P Reply) d
      ⟨t.value, t.state, j ++ t.journal⟩ := by
  have hstop : (perform now .stop : Drive I L P Reply) c = ⟨some .nothing, d, j⟩ := by
    show (stop >>= fun _ => pure .nothing : Drive I L P Reply) c = _
    simp [bind_apply, h]
  rw [stopThen, bind_apply, hstop]

/-- a stop whose interpreter breaks down over its reset is not followed by anything -/
theorem stopThen_breaks (op : Operation) (hp : c.phase.hasSession = true ∨ c.phase = .faulted) (hl : c.live = some inst)
    (hr : Interpreter.reset inst.machine = none) : ((stopThen now op : Drive I L P Reply) c).value = none := by
  have hstop : ((perform now .stop : Drive I L P Reply) c).value = none := by
    show ((stop >>= fun _ => pure .nothing : Drive I L P Reply) c).value = none
    rw [bind_apply, stop_breaks hp hl hr]
  rw [stopThen, bind_apply, hstop]

/-- a start over a live session, and a stop followed by the start -/
theorem start_swapped (now : Instant) (hop : op = .run ∨ op = .firstStep)
    (hc : Interpreter.check c.built.machine = some .accepted)
    (hp : c.phase.hasSession = true) (hl : c.live = some inst) (hr : Interpreter.reset inst.machine = some machine) :
    Swapped (c.loadEntries .accepted) (c.teardown inst .stopped) ((perform now op : Drive I L P Reply) c)
      ((stopThen now op : Drive I L P Reply) c) := by
  have hstop := stop_live hp hl hr
  -- the stop leaves alone what the loader is called with, so it can go first
  have hc' : Interpreter.check ((c.ended .stopped).hear (c.teardown inst .stopped)).built.machine = some .accepted := hc
  have hlate : (stop : Drive I L P Unit) c.loaded =
      ⟨some (), ((c.ended .stopped).hear (c.teardown inst .stopped)).loaded, c.teardown inst .stopped⟩ :=
    stop_live (c := c.loaded) hp hl hr
  have hsession : (begin c.built >>= fun _ => launch now op : Drive I L P Reply) c.loaded =
      (stop >>= fun _ => begin c.built >>= fun _ => launch now op : Drive I L P Reply) c.loaded := by
    calc
      (begin c.built >>= fun _ => launch now op : Drive I L P Reply) c.loaded
          = ((stop >>= fun _ => begin c.built) >>= fun _ => launch now op : Drive I L P Reply) c.loaded := by
        rw [bind_apply, begin_live (c := c.loaded) hp hl hr, ← bind_apply]
      _ = (stop >>= fun _ => begin c.built >>= fun _ => launch now op : Drive I L P Reply) c.loaded := by
        rw [bind_assoc]
  rw [stopThen_of_stop now op hstop, start_accepted now hop hc, start_accepted now hop hc', hsession, bind_apply, hlate]
  exact ⟨rfl, rfl, _, rfl, rfl⟩

/-- a start over a live session whose interpreter breaks down over its reset breaks down in either order -/
theorem start_breaks_swapped (hop : op = .run ∨ op = .firstStep)
    (hc : Interpreter.check c.built.machine = some .accepted) (hp : c.phase.hasSession = true) (hl : c.live = some inst)
    (hr : Interpreter.reset inst.machine = none) :
    ((perform now op : Drive I L P Reply) c).value = none ∧ ((stopThen now op : Drive I L P Reply) c).value = none := by
  have hbreaks : StartBreaks (P := P) c := Or.inr ⟨hc, begin_breaks_old (c := c.loaded) hp hl hr c.built⟩
  exact ⟨start_breaks hop hbreaks, stopThen_breaks op (Or.inl hp) hl hr⟩

/-! ## After a fault -/

omit [Interpreter I] [Loader L I] in
/-- an action that leaves its presenter aside has told it the notices of the journal -/
theorem Aside.presenter {α : Type} {m : Drive I L P α} (h : Aside m m) (c : Controller I L P) :
    (m c).state.presenter = (notices (m c).journal).foldl Presenter.accept c.presenter :=
  congrArg (fun t => t.state.presenter) (h c c.presenter :)

omit [Loader L I] in
theorem aside_takeFirstStep {Q : Type} [Presenter Q] : Aside (takeFirstStep now : Drive I L P (Except Error Outcome))
    (takeFirstStep now : Drive I L Q (Except Error Outcome)) :=
  (aside_executeStep now).bind fun _ => .read_bind fun _ _ => .ite ((aside_goTo _).bind fun _ => .pure _) (.pure _)

omit [Loader L I] in
theorem aside_startRest {Q : Type} [Presenter Q] (op : Operation) :
    Aside (startRest now op : Drive I L P Reply) (startRest now op : Drive I L Q Reply) := by
  cases op with
  | run => exact .pure _
  | _ => exact .map _ aside_takeFirstStep

/-- two turns with the same value and, but for their presenters, the same end; the second reset the faulted interpreter
`inst` and announced `idle` before it did as the first -/
structure Rearmed (c : Controller I L P) (inst : Instance I) (t t' : Turn (Controller I L P) (Entry I) Reply) : Prop where
  value : t.value = t'.value
  state : t'.state = t.state.shownTo t'.state.presenter
  presenter : t'.state.presenter = (notices t'.journal).foldl Presenter.accept c.presenter
  done : deeds t'.journal =
    .called inst.serial inst.machine (.reset true) :: .shown (.phaseChanged .idle) :: deeds t.journal

/-- a start after a fault, and a stop followed by the start -/
theorem start_rearmed {fresh : I} (hop : op = .run ∨ op = .firstStep)
    (hc : Interpreter.check c.built.machine = some .accepted) (hp : c.phase = .faulted) (hl : c.live = some inst)
    (hr : Interpreter.reset inst.machine = some machine) (hf : Interpreter.reset c.built.machine = some fresh) :
    Rearmed c inst ((perform now op : Drive I L P Reply) c) ((stopThen now op : Drive I L P Reply) c) := by
  have hstop := stop_faulted hp hl hr
  have hs : Starts c [] c.loaded fresh := ⟨hc, .empty (c := c.loaded) (by exact hp ▸ rfl), hf⟩
  have hs' : Starts ((c.ended .idle).hear (c.teardown inst .idle)) []
      ((c.ended .idle).hear (c.teardown inst .idle)).loaded fresh := ⟨hc, .empty rfl, hf⟩
  obtain ⟨s, hs, ht⟩ := start_apply now hop hs
  obtain ⟨s', hs', ht'⟩ := start_apply now hop hs'
  have hsame : s' = s.shownTo s'.presenter := by
    rw [hs, hs']
    obtain rfl | rfl := hop <;> rfl
  have hrest : (startRest now op : Drive I L P Reply) s' =
      ((startRest now op : Drive I L P Reply) s).overheard s'.presenter := by
    rw [hsame]
    exact aside_startRest op s _
  rw [hrest] at ht'
  have hstopped := stopThen_of_stop now op hstop
  rw [ht'] at hstopped
  have haside : Aside (stopThen now op : Drive I L P Reply) (stopThen now op : Drive I L P Reply) :=
    (aside_perform now .stop).bind fun _ => aside_perform now op
  refine ⟨?_, ?_, haside.presenter c, ?_⟩
  · rw [ht, hstopped]
    rfl
  · rw [ht, hstopped]
    rfl
  · rw [ht, hstopped]
    simp only [deeds_append]
    rfl

/-- a session that does not begin after a fault does not begin after a stop either -/
theorem start_breaks_rearmed (hop : op = .run ∨ op = .firstStep)
    (hc : Interpreter.check c.built.machine = some .accepted) (hp : c.phase = .faulted) (hl : c.live = some inst)
    (hr : Interpreter.reset inst.machine = some machine) (hf : Interpreter.reset c.built.machine = none) :
    ((perform now op : Drive I L P Reply) c).value = none ∧ ((stopThen now op : Drive I L P Reply) c).value = none := by
  have hnow : StartBreaks (P := P) c := Or.inr ⟨hc, begin_breaks_new hf⟩
  have hlater : StartBreaks ((c.ended .idle).hear (c.teardown inst .idle)) := Or.inr ⟨hc, begin_breaks_new hf⟩
  refine ⟨start_breaks hop hnow, ?_⟩
  rw [stopThen_of_stop now op (stop_faulted hp hl hr)]
  exact start_breaks hop hlater

/-! ## Restarts -/

/-- a start where there is nothing to stop, and a stop followed by the start: the stop is ignored -/
theorem stopThen_vacant (op : Operation) (hp : c.phase = .idle ∨ c.phase = .stopped) :
    (stopThen now op : Drive I L P Reply) c =
      { (perform now op : Drive I L P Reply) c with
        journal := .noted (.ignored .stop c.phase) :: ((perform now op : Drive I L P Reply) c).journal } := by
  have hstop : (stop : Drive I L P Unit) c = ⟨some (), c, [.noted (.ignored .stop c.phase)]⟩ :=
    eq_of_gives ((gives_stop_vacant hp).2 ⟨rfl, rfl, rfl⟩)
  rw [stopThen_of_stop now op hstop]
  rfl

omit [Interpreter I] [Presenter P] in
/-- the loader call and the check are not announced -/
theorem Swapped.notices {α : Type} {answer : Check} {b : List (Entry I)} {t t' : Turn (Controller I L P) (Entry I) α}
    (h : Swapped (c.loadEntries answer) b t t') : notices t.journal = notices t'.journal := by
  obtain ⟨rest, hfirst, hsecond⟩ := h.journal
  rw [hfirst, hsecond]
  simp [loadEntries]

/-- **Restarting is stopping and starting.** Where a session is live, a start whose program parses and a stop followed by
that start have the same value, lead to the same controller, and announce the same: what they did is the same but for the
loader call and the check, which come before the reset of the old interpreter or after it; and where the old interpreter
breaks down over that reset, they break down both. Where there is nothing to stop they are the same but for the log record of
the stop. After a fault the stop resets the faulted interpreter and announces `idle`, and that is all the difference: a start
that breaks down does so after a stop as well, and only the faulted interpreter can break down over the stop alone. -/
theorem restart_eq_stop_start {past : List Applied} (h : Reached past c) (now : Instant)
    (hop : op = .run ∨ op = .firstStep) (hc : Interpreter.check c.built.machine = some .accepted) :
    (c.phase.hasSession = true → ∃ inst, c.live = some inst ∧
      match Interpreter.reset inst.machine with
      | some _ => Swapped (c.loadEntries .accepted) (c.teardown inst .stopped) ((perform now op : Drive I L P Reply) c)
            ((stopThen now op : Drive I L P Reply) c) ∧
          notices ((perform now op : Drive I L P Reply) c).journal = notices ((stopThen now op : Drive I L P Reply) c).journal
      | none => ((perform now op : Drive I L P Reply) c).value = none ∧
          ((stopThen now op : Drive I L P Reply) c).value = none) ∧
    (c.phase = .idle ∨ c.phase = .stopped →
      (stopThen now op : Drive I L P Reply) c =
        { (perform now op : Drive I L P Reply) c with
          journal := .noted (.ignored .stop c.phase) :: ((perform now op : Drive I L P Reply) c).journal }) ∧
    (c.phase = .faulted → ∃ inst, c.live = some inst ∧
      match Interpreter.reset inst.machine, Interpreter.reset c.built.machine with
      | some _, some _ => Rearmed c inst ((perform now op : Drive I L P Reply) c) ((stopThen now op : Drive I L P Reply) c)
      | some _, none => ((perform now op : Drive I L P Reply) c).value = none ∧
          ((stopThen now op : Drive I L P Reply) c).value = none
      | none, _ => ((stopThen now op : Drive I L P Reply) c).value = none) := by
  obtain ⟨hsteady, -⟩ := h.steady
  refine ⟨?live, stopThen_vacant op, ?faulted⟩
  case live =>
    intro hp
    obtain ⟨inst, hl⟩ := hsteady.exists_live (Or.inl hp)
    refine ⟨inst, hl, ?_⟩
    cases hr : Interpreter.reset inst.machine with
    | some machine =>
      have hswapped := start_swapped now hop hc hp hl hr
      exact ⟨hswapped, hswapped.notices⟩
    | none => exact start_breaks_swapped hop hc hp hl hr
  case faulted =>
    intro hp
    obtain ⟨inst, hl⟩ := hsteady.exists_live (Or.inr hp)
    refine ⟨inst, hl, ?_⟩
    cases hr : Interpreter.reset inst.machine with
    | none => exact stopThen_breaks op (Or.inr hp) hl hr
    | some machine =>
      cases hf : Interpreter.reset c.built.machine with
      | some fresh => exact start_rearmed hop hc hp hl hr hf
      | none => exact start_breaks_rearmed hop hc hp hl hr hf

/-- a program that asks for input, and after that runs to its end -/
def briefTalk : Repertoire :=
  ⟨[{ lines := [{ hooks := [.output 63, .requestInput ⟨3⟩] }, { ending := some (.halt .completion) }] }]⟩

/-- a session that waits for input is replaced by a new one, which takes its first step and waits as well -/
theorem restart_eq_stop_start_waiting :
    ∃ (past : List Applied) (c : Controller Player Repertoire Channel) (inst : Instance Player),
      Reached past c ∧ c.phase = .awaitingInput ∧ c.live = some inst ∧ inst.machine.cursor = 1 ∧
        Swapped (c.loadEntries .accepted) (c.teardown inst .stopped)
          ((perform 9 .firstStep : Drive Player Repertoire Channel Reply) c)
          ((stopThen 9 .firstStep : Drive Player Repertoire Channel Reply) c) ∧
        notices ((stopThen 9 .firstStep : Drive Player Repertoire Channel Reply) c).journal =
          [.phaseChanged .stopped, .reset, .phaseChanged .steppingOnce, .output 63, .phaseChanged .awaitingInput,
            .inputRequested ⟨3⟩] := by
  have hrunning := (Reached.new (P := Channel) {} briefTalk {}).perform 0 .run rfl
  have hwaiting := hrunning.perform 5 .tick rfl
  obtain ⟨inst, hl, hswapped, -⟩ := (restart_eq_stop_start hwaiting 9 (Or.inr rfl) rfl).1 rfl
  obtain rfl := Option.some.inj hl
  exact ⟨_, _, _, hwaiting, rfl, rfl, rfl, hswapped, rfl⟩

end Controller

end StepControl

/-
No stale tick: the task of a session takes a tick only when the session has been running for a whole delay since the timer
was armed last.

The history of a controller says when its timer was armed: by a start, a resume or an input that set the session running
(`Applied.starts`), and by a change of the delay while it runs (`Applied.repaces`). It also says when the timer was taken
from the session, or stayed away from it (`Applied.suspends`): a pause, a stop, a first step, a halt, a request for input.

What an operation says of the timer is in `TimerTold`, with one lemma for every operation (`perform_timerTold`). From it, by
induction on histories:
- `Reached.armedBy`: the timer of a running session was armed by the last entry of its history that could arm it, and its
  delay has been the same since.
- `Reached.started`: a running session has been started since anything suspended it.

`ArmedAt.le_of_ready`: a timer that was armed at some instant gives no tick before one delay is over, however often and
however late it was asked since.

Results:
- `Session.runs_onTime`: in every run of a session, where its task applies a tick the session is running, and the tick is in
  time (`OnTime`) for the history of the controller: what was done with it before it was handed over, and what the task had
  it do before this tick.
- `Session.runs_onTime_resumed`: a tick of a session that was paused and resumed.

Premises: none of the interpreter, nor of the instants at which the task takes its turns. A lower bound is all that is said
here; when ticks do come is said in `Rhythm` and `Drift`.
-/
import StepControl.Proofs.Histories

namespace StepControl

open StepControl.Action

/-! ## What arms the timer, and what suspends a session -/

/-- the session that reached this phase halted, or was stopped, or waits for input -/
def Phase.isHeld : Phase → Bool
  | .awaitingInput | .stopped | .faulted => true
  | _ => false

theorem Phase.ne_running_of_isHeld {p : Phase} (h : p.isHeld = true) : p ≠ .running := by
  rintro rfl
  exact absurd h (by decide)

namespace Applied

/-- the timer was armed for a session that it did not drive: by a run that was not refused, by the resume of a paused
session, or by an input that the program took -/
def starts (e : Applied) : Bool :=
  match e.operation.plain with
  | .run => e.reply.toResult.isOk
  | .resume => e.before = .paused
  | .supplyInput _ => e.before = .awaitingInput && e.after = .running
  | _ => false

/-- the timer was armed anew for a running session, by a change of its delay -/
def repaces (e : Applied) : Bool :=
  match e.operation.plain with
  | .setDelay _ => e.reply.toResult.isOk && e.before = .running
  | _ => false

def arms (e : Applied) : Bool := e.starts || e.repaces

/-- the timer was taken from the session, or stayed away from it: by a pause, a stop, a first step, a halt or a request for
input -/
def suspends (e : Applied) : Bool :=
  match e.operation.plain with
  | .pause | .stop => true
  | .firstStep => e.reply.toResult.isOk
  | _ => e.after.isHeld

end Applied

/-! ## Schedules -/

/-- the interval that is asked for a tick was laid down before, or begins one delay after the arming -/
theorem Schedule.interval?_cases {s : Schedule} {delay : Delay} {i : Interval} (h : s.interval? delay = some i) :
    s.interval = some i ∨ (s.interval = none ∧ i = ⟨delay, s.armedAt + delay.total⟩) := by
  unfold Schedule.interval? at h
  cases hlaid : s.interval with
  | some laid => exact Or.inl (by simpa [hlaid] using h)
  | none =>
    simp only [hlaid] at h
    split at h
    · exact Or.inr ⟨rfl, (Option.some.inj h).symm⟩
    · cases h

namespace Timer

variable {t : Timer} {now armed : Instant}

/-- the timer was armed at `armed`, and no tick of it is due before one delay is over -/
structure ArmedAt (armed : Instant) (t : Timer) : Prop where
  schedule : ∃ s, t.schedule = some s ∧ s.armedAt = armed ∧ ∀ i, s.interval = some i → armed + t.delay.total ≤ i.due

theorem armedAt_of_schedule (h : t.schedule = some { armedAt := armed }) : ArmedAt armed t :=
  ⟨_, h, rfl, by simp⟩

/-- the interval that is asked for a tick has no due time before one delay is over -/
theorem ArmedAt.le_due {s : Schedule} {i : Interval} (h : ArmedAt armed t) (hs : t.schedule = some s)
    (hi : s.interval? t.delay = some i) : armed + t.delay.total ≤ i.due := by
  obtain ⟨s', hs', harmed, hdue⟩ := h.schedule
  obtain rfl : s = s' := Option.some.inj (hs.symm.trans hs')
  rcases Schedule.interval?_cases hi with hlaid | ⟨-, rfl⟩
  · exact hdue i hlaid
  · simp [harmed]

/-- **A tick comes no sooner than one delay after the arming.** -/
theorem ArmedAt.le_of_ready (h : ArmedAt armed t) (hready : (t.poll now).1 = .ready) :
    armed + t.delay.total ≤ now := by
  have hanswered := t.poll_answered now
  generalize t.poll now = p at hanswered hready
  cases hanswered with
  | @ready s i armed laid due goes =>
    calc
      _ ≤ i.due := h.le_due armed laid
      _ ≤ now.whole := due
      _ ≤ now := Instant.whole_le now
  | _ => cases hready

/-- taking a tick that is due does not bring the next one forward -/
theorem le_due_take {i : Interval} (h : i.due ≤ now) : i.due ≤ (i.take now).due := by
  unfold Interval.take
  dsimp only
  split
  · exact Nat.le_add_right _ _
  · exact Nat.le_add_right_of_le h

/-- asking for a tick leaves the timer armed as it was -/
theorem ArmedAt.poll (h : ArmedAt armed t) (now : Instant) : ArmedAt armed (t.poll now).2 := by
  obtain ⟨s, hs, harmed, -⟩ := h.schedule
  have hanswered := t.poll_answered now
  generalize t.poll now = p at hanswered ⊢
  cases hanswered with
  | @pending s' i armed laid early =>
    obtain rfl : s = s' := Option.some.inj (hs.symm.trans armed)
    have hdue := h.le_due armed laid
    exact ⟨_, rfl, harmed, by simpa using hdue⟩
  | @ready s' i armed laid due goes =>
    obtain rfl : s = s' := Option.some.inj (hs.symm.trans armed)
    have hdue := Nat.le_trans (h.le_due armed laid) (le_due_take (Nat.le_trans due (Instant.whole_le now)))
    exact ⟨_, rfl, harmed, by simpa using hdue⟩
  | _ => exact h

theorem poll_delay (now : Instant) (t : Timer) : (t.poll now).2.delay = t.delay := by
  have hanswered := t.poll_answered now
  generalize t.poll now = p at hanswered ⊢
  cases hanswered <;> rfl

end Timer

/-! ## What an operation does to the timer -/

namespace Controller

variable {I L P : Type} [Interpreter I] [Presenter P] {c d : Controller I L P} {now : Instant} {op : Operation}

/-- a step leaves the timer as it is, or the session is no longer to be stepped -/
theorem executeStep_timer (h : Steady c) (hp : c.phase.canStep = true) :
    Yields (executeStep now : Drive I L P Outcome) c fun _ d _ =>
      (d.phase = c.phase ∧ d.timer = c.timer) ∨ d.phase.canStep = false := by
  rcases executeStep_cases now h hp with ⟨inst, hooks, verdict, machine, hl, hn⟩ | hbroken
  · refine ((gives_executeStep_end h hp hl hn now).imp ?_).yields
    intro _ d j hend
    cases hend with
    | halt why => exact Or.inr (by cases why <;> rfl)
    | proceed silent => exact Or.inl ⟨rfl, rfl⟩
    | ask asked => exact Or.inr rfl
  · exact yields_of_none hbroken

/-- what the entry `e` of an operation from `c` to `d` says of the timer -/
structure TimerTold (c d : Controller I L P) (e : Applied) : Prop where
  armed : e.arms = true → d.phase = .running ∧ d.timer.schedule = some { armedAt := e.moment }
  kept : e.arms = false → d.phase = .running → c.phase = .running ∧ d.timer = c.timer
  suspended : e.suspends = true → d.phase ≠ .running

omit [Interpreter I] [Presenter P] in
/-- nothing happened to phase and timer -/
theorem TimerTold.same {e : Applied} (hphase : d.phase = c.phase) (htimer : d.timer = c.timer) (ha : e.arms = false)
    (hs : e.suspends = true → d.phase ≠ .running) : TimerTold c d e where
  armed harms := by simp [ha] at harms
  kept _ hrunning := ⟨hphase ▸ hrunning, htimer⟩
  suspended := hs

omit [Interpreter I] [Presenter P] in
/-- the session is not running afterwards -/
theorem TimerTold.off {e : Applied} (hphase : d.phase ≠ .running) (ha : e.arms = false) : TimerTold c d e where
  armed harms := by simp [ha] at harms
  kept _ hrunning := absurd hrunning hphase
  suspended _ := hphase

omit [Interpreter I] [Presenter P] in
/-- the timer drives the session from now on -/
theorem TimerTold.on {e : Applied} (hphase : d.phase = .running) (ht : d.timer.schedule = some { armedAt := e.moment })
    (ha : e.arms = true) (hs : e.suspends = false) : TimerTold c d e where
  armed _ := ⟨hphase, ht⟩
  kept hno := by simp [ha] at hno
  suspended hyes := by simp [hs] at hyes

variable [Loader L I]

theorem run_timerTold (h : Steady c) :
    Yields (perform now .run : Drive I L P Reply) c fun reply d _ => TimerTold c d (applied now .run reply c d) := by
  rw [perform, yields_map]
  rcases h.start_cases with ⟨message, hc⟩ | ⟨j, d, machine, hs⟩ | hbroken
  · refine Gives.yields ?_
    rw [gives_run_rejected hc]
    exact .same rfl rfl rfl Phase.ne_running_of_isHeld
  · refine Gives.yields ?_
    rw [gives_run_accepted hs.check hs.cleared hs.reset]
    exact .on rfl rfl rfl rfl
  · exact yields_of_none (run_breaks hbroken)

theorem firstStep_timerTold (h : Steady c) :
    Yields (perform now .firstStep : Drive I L P Reply) c fun reply d _ =>
      TimerTold c d (applied now .firstStep reply c d) := by
  rw [perform, yields_map]
  rcases h.start_cases with ⟨message, hc⟩ | ⟨j, d, machine, hs⟩ | hbroken
  · refine Gives.yields ?_
    rw [gives_firstStep_rejected hc]
    exact .same rfl rfl rfl fun hok => absurd (show false = true from hok) (by decide)
  · rw [yields_firstStep_started hs]
    have hstart : Move now none c _ _ := .start hs.check hs.cleared hs.reset (Or.inr rfl)
    refine (executeStep_timer ((hstart.steady h).hear _) rfl).imp ?_
    intro outcome e k hstep
    split
    case isTrue hp => exact .off (by simp) rfl
    case isFalse hp =>
      refine .off ?_ rfl
      rcases hstep with ⟨hphase, -⟩ | hout
      · exact absurd hphase hp
      · rintro hrunning
        simp [hrunning, Phase.canStep] at hout
  · exact yields_of_none (firstStep_breaks hbroken)

omit [Loader L I] in
/-- a step of a session that is paused, or that the timer drives -/
theorem executeStep_timerTold (h : Steady c) (hp : c.phase = .running ∨ c.phase = .paused)
    {e : Controller I L P → Outcome → Applied}
    (he : ∀ d o, (e d o).arms = false) (hs : ∀ d o, (e d o).suspends = d.phase.isHeld) :
    Yields (executeStep now : Drive I L P Outcome) c fun o d _ => TimerTold c d (e d o) := by
  have hstep : c.phase.canStep = true := by obtain hp | hp := hp <;> rw [hp] <;> rfl
  refine (executeStep_timer h hstep).imp ?_
  intro o d _ hd
  have hheld : (e d o).suspends = true → d.phase ≠ .running := by
    rw [hs]
    exact Phase.ne_running_of_isHeld
  rcases hd with ⟨hphase, htimer⟩ | hout
  · exact .same hphase htimer (he d o) hheld
  · refine .off ?_ (he d o)
    rintro hrunning
    simp [hrunning, Phase.canStep] at hout

omit [Loader L I] in
theorem stop_ends (h : Steady c) : Yields (stop : Drive I L P Unit) c fun _ d _ => d.phase ≠ .running := by
  rcases stop_cases h with hv | ⟨inst, machine, hp, hl, hr⟩ | hbroken
  · refine Gives.yields ?_
    rw [gives_stop_vacant hv]
    obtain hv | hv := hv <;> simp [hv]
  · refine Gives.yields ?_
    rw [gives_stop hp hl hr]
    simp only [hear_phase, ended, stopTarget]
    split <;> simp
  · exact yields_of_none hbroken

omit [Loader L I] in
theorem supplyInput_timerTold (h : Steady c) (text : String) :
    Yields (supplyInput now text : Drive I L P (Except Error Unit)) c fun result d _ =>
      TimerTold c d (applied now (.supplyInput text) (.result result) c d) := by
  rcases supplyInput_cases now text h with hp | ⟨hp, cell, inst, verdict, machine, hg, hl, ht⟩ | hbroken
  · refine Gives.yields ?_
    rw [gives_supplyInput_rejected hp]
    refine .same rfl rfl ?_ Phase.ne_running_of_isHeld
    simp [applied, Applied.arms, Applied.starts, Applied.repaces, Operation.plain, hp]
  · refine Gives.yields ?_
    cases verdict with
    | proceed =>
      rw [gives_supplyInput_proceed hp hg hl ht]
      have harms : ∀ d : Controller I L P, d.phase = .running →
          (applied now (.supplyInput text) (.result (.ok ())) c d).arms = true := by
        intro d hd
        simp [applied, Applied.arms, Applied.starts, Operation.plain, hp, hd]
      exact .on rfl rfl (harms _ rfl) rfl
    | halt why =>
      rw [gives_supplyInput_halt hp hg hl (h.errorShown (by rw [hp]; rfl)) ht]
      have hhalted : why.phase ≠ .running := by cases why <;> simp [Halt.phase]
      refine .off hhalted ?_
      simp [applied, Applied.arms, Applied.starts, Applied.repaces, Operation.plain, halted, hhalted]
  · exact yields_of_none hbroken

omit [Interpreter I] [Presenter P] [Loader L I] in
theorem setDelay_timerTold (h : Steady c) (millis : UInt64) :
    Yields (setDelay now millis : Drive I L P (Except Error Unit)) c fun result d _ =>
      TimerTold c d (applied now (.setDelay millis) (.result result) c d) := by
  refine Gives.yields ?_
  unfold setDelay
  split
  case h_1 e he =>
    simp only [gives_bind, gives_note, gives_pure]
    exact .same rfl rfl rfl Phase.ne_running_of_isHeld
  case h_2 delay he =>
    simp only [gives_bind, gives_update, gives_read, gives_note, gives_pure]
    by_cases hp : c.phase = .running
    · have hset : c.timer.setDelay now delay = { c.timer with delay }.start now := if_pos (h.timer.2 hp)
      have harms : ∀ d : Controller I L P, (applied now (.setDelay millis) (.result (.ok ())) c d).arms = true := by
        intro d
        simp only [applied, Applied.arms, Applied.starts, Applied.repaces, Operation.plain, hp, decide_true, Bool.and_true,
          Bool.false_or]
        rfl
      have hheld : ∀ d : Controller I L P, d.phase = .running →
          (applied now (.setDelay millis) (.result (.ok ())) c d).suspends = false := by
        intro d hd
        simp only [applied, Applied.suspends, Operation.plain, hd, Phase.isHeld]
      exact .on hp (by rw [hset]; rfl) (harms _) (hheld _ hp)
    · exact .off hp (by simp [applied, Applied.arms, Applied.starts, Applied.repaces, Operation.plain, hp])

theorem intent_timerTold (h : Steady c) (intent : Intent) :
    Yields (perform now intent.operation : Drive I L P Reply) c fun reply d _ =>
      TimerTold c d (applied now intent.operation reply c d) := by
  cases intent with
  | load text => exact yields_of_eq (a := .nothing) rfl (.same rfl rfl rfl Phase.ne_running_of_isHeld)
  | setOptimize on => exact yields_of_eq (a := .nothing) rfl (.same rfl rfl rfl Phase.ne_running_of_isHeld)
  | run => exact run_timerTold h
  | firstStep => exact firstStep_timerTold h
  | step =>
    rw [Intent.operation, perform, yields_map]
    by_cases hp : c.phase = .paused
    · rw [yields_congr (step_paused hp), yields_map]
      exact executeStep_timerTold h (Or.inr hp) (fun _ _ => rfl) fun _ _ => rfl
    · exact yields_of_eq (step_ignored hp) (.same rfl rfl rfl Phase.ne_running_of_isHeld)
  | pause =>
    refine Gives.yields ?_
    simp only [Intent.operation, perform, pause, gives_bind, gives_read, gives_pure]
    split
    case h_1 hp =>
      simp only [gives_bind, gives_update, gives_goTo]
      rw [if_neg (by simp [hp])]
      exact .off (by simp) rfl
    case h_2 hp => simpa using .off (by simp [hp]) rfl
    case h_3 hp _ => simpa using .off hp rfl
  | resume =>
    refine Gives.yields ?_
    simp only [Intent.operation, perform, resume, gives_bind, gives_read, gives_ite, gives_pure]
    split
    case isTrue hp =>
      simp only [gives_arm, gives_goTo]
      rw [if_neg (by simp [hp])]
      exact .on rfl rfl (by simp [applied, Applied.arms, Applied.starts, Operation.plain, hp]) rfl
    case isFalse hp =>
      have hno : ∀ d, (applied now .resume .nothing c d).arms = false := by
        simp [applied, Applied.arms, Applied.starts, Applied.repaces, Operation.plain, hp]
      simpa using .same rfl rfl (hno c) Phase.ne_running_of_isHeld
  | stop =>
    rw [Intent.operation, perform, yields_bind]
    refine (stop_ends h).imp ?_
    intro _ d _ hd
    exact yields_of_eq (a := .nothing) rfl (.off hd rfl)
  | supplyInput text =>
    rw [Intent.operation, perform, yields_map]
    exact supplyInput_timerTold h text
  | setDelay millis =>
    rw [Intent.operation, perform, yields_map]
    exact setDelay_timerTold h millis

theorem perform_timerTold (h : Steady c) (op : Operation) :
    Yields (perform now op : Drive I L P Reply) c fun reply d _ => TimerTold c d (applied now op reply c d) := by
  rcases op.kinds with rfl | ⟨intent, rfl⟩ | ⟨intent, rfl⟩
  · rw [perform, yields_map]
    by_cases hp : c.phase = .running
    · rw [yields_congr (tick_running hp), yields_map]
      exact executeStep_timerTold h (Or.inl hp) (fun _ _ => rfl) fun _ _ => rfl
    · exact yields_of_eq (tick_dropped hp) (.same rfl rfl rfl Phase.ne_running_of_isHeld)
  · exact intent_timerTold h intent
  · rw [yields_dispatch]
    refine (intent_timerTold h intent).imp ?_
    intro reply d _ hd
    -- what is said of an entry looks only at the operation undispatched and at the result that the dispatch passes on
    have harms : (applied now (.dispatch intent) (.result reply.toResult) c d).arms =
        (applied now intent.operation reply c d).arms := by
      simp only [applied, Applied.arms, Applied.starts, Applied.repaces, Intent.plain_operation]
      rfl
    have hsuspends : (applied now (.dispatch intent) (.result reply.toResult) c d).suspends =
        (applied now intent.operation reply c d).suspends := by
      simp only [applied, Applied.suspends, Intent.plain_operation]
      rfl
    exact
      { armed := fun h => hd.armed (harms ▸ h)
        kept := fun h => hd.kept (harms ▸ h)
        suspended := fun h => hd.suspended (hsuspends ▸ h) }

/-- an operation that returned is the last of the history, and tells of the timer -/
theorem Reached.told {past : List Applied} {op : Operation} {reply : Reply} {j : List (Entry I)} (h : Reached past c)
    (hperform : (Controller.perform now op : Drive I L P Reply) c = ⟨some reply, d, j⟩) :
    Reached (past ++ [applied now op reply c d]) d ∧ TimerTold c d (applied now op reply c d) := by
  have hreturned : ((Controller.perform now op : Drive I L P Reply) c).value = some reply := by rw [hperform]
  have hnext := h.perform now op hreturned
  have htold := perform_timerTold h.steady.1 op reply hreturned
  rw [hperform] at hnext htold
  exact ⟨hnext, htold⟩

theorem Reached.tick_told {past : List Applied} {outcome : Option Outcome} (h : Reached past c)
    (hvalue : (tick now c).value = some outcome) :
    Reached (past ++ [applied now .tick (.stepped outcome) c (tick now c).state]) (tick now c).state ∧
      TimerTold c (tick now c).state (applied now .tick (.stepped outcome) c (tick now c).state) := by
  apply h.told (j := (tick now c).journal)
  rw [Controller.perform, map_apply, hvalue]
  rfl

/-! ## The timer of a running session -/

/-- the timer was armed by the last entry of `history` that could, the session has been running since, and its delay has
been the same -/
structure ArmedBy (history : List Applied) (t : Timer) (last : Applied) : Prop where
  place : ∃ earlier later, history = earlier ++ last :: later ∧
    ∀ e ∈ later, e.arms = false ∧ e.after = .running ∧ e.delay = last.delay
  arms : last.arms = true
  running : last.after = .running
  armedAt : t.ArmedAt last.moment
  delay : t.delay = last.delay

omit [Interpreter I] [Presenter P] [Loader L I] in
/-- the timer that the entry `e` arms, armed by it -/
theorem TimerTold.armedBy {e : Applied} {past : List Applied} (h : TimerTold c d e) (harms : e.arms = true)
    (hafter : e.after = d.phase) (hdelay : e.delay = d.delay) : ArmedBy (past ++ [e]) d.timer e where
  place := ⟨past, [], rfl, by simp⟩
  arms := harms
  running := hafter.trans (h.armed harms).1
  armedAt := Timer.armedAt_of_schedule (h.armed harms).2
  delay := hdelay.symm

/-- an entry that does not arm the timer of a running session leaves it armed as it was -/
theorem ArmedBy.snoc {e last : Applied} {past : List Applied} {t : Timer} (h : ArmedBy past t last)
    (harms : e.arms = false) (hafter : e.after = .running) (hdelay : e.delay = t.delay) :
    ArmedBy (past ++ [e]) t last where
  place := by
    obtain ⟨earlier, later, rfl, hlater⟩ := h.place
    refine ⟨earlier, later ++ [e], by simp, ?_⟩
    intro x hx
    rcases List.mem_append.1 hx with hx | hx
    · exact hlater x hx
    · obtain rfl : x = e := by simpa using hx
      exact ⟨harms, hafter, hdelay.trans h.delay⟩
  arms := h.arms
  running := h.running
  armedAt := h.armedAt
  delay := h.delay

/-- **The timer of a running session is armed by its history.** -/
theorem Reached.armedBy {past : List Applied} (h : Reached past c) (hp : c.phase = .running) :
    ∃ last, ArmedBy past c.timer last := by
  induction h with
  | new config loader presenter => simp [ofConfig] at hp
  | @perform past c reply front now op returned ih =>
    have htold := perform_timerTold front.steady.1 op _ returned
    cases harms : (applied now op reply c ((Controller.perform now op : Drive I L P Reply) c).state).arms with
    | true => exact ⟨_, htold.armedBy harms rfl rfl⟩
    | false =>
      obtain ⟨hbefore, htimer⟩ := htold.kept harms hp
      obtain ⟨last, hlast⟩ := ih hbefore
      rw [htimer]
      exact ⟨last, hlast.snoc harms hp (congrArg Timer.delay htimer)⟩
  | @poll past c front now ih =>
    obtain ⟨last, hlast⟩ := ih hp
    exact ⟨last, hlast.place, hlast.arms, hlast.running, hlast.armedAt.poll now,
      (Timer.poll_delay now c.timer).trans hlast.delay⟩

omit [Interpreter I] [Presenter P] [Loader L I] in
/-- an operation that leaves the session running, and found it otherwise, arms its timer for it -/
theorem TimerTold.starts {reply : Reply} (h : TimerTold c d (applied now op reply c d)) (hbefore : c.phase ≠ .running)
    (hafter : d.phase = .running) : (applied now op reply c d).starts = true := by
  by_contra hno
  have hidle : (applied now op reply c d).repaces = false := by
    unfold Applied.repaces
    split
    · simp [applied, hbefore]
    · rfl
  have hkept := h.kept (by simpa [Applied.arms, hidle] using hno) hafter
  exact hbefore hkept.1

/-- **A running session has been started since it was suspended.** -/
theorem Reached.started {past earlier later : List Applied} {e : Applied} (h : Reached past c)
    (hp : c.phase = .running) (hpast : past = earlier ++ e :: later) (hs : e.suspends = true) :
    ∃ x ∈ later, x.starts = true := by
  induction h generalizing later with
  | new config loader presenter => simp at hpast
  | @perform past c reply front now op returned ih =>
    have htold := perform_timerTold front.steady.1 op _ returned
    rcases List.eq_nil_or_concat' later with rfl | ⟨later, x, rfl⟩
    · obtain ⟨-, hlast⟩ := List.append_inj' hpast rfl
      rw [← List.head_eq_of_cons_eq hlast] at hs
      exact absurd hp (htold.suspended hs)
    · rw [← List.cons_append, ← List.append_assoc] at hpast
      obtain ⟨hfront, hlast⟩ := List.append_inj' hpast rfl
      have hstarts := htold.starts
      rw [List.head_eq_of_cons_eq hlast] at hstarts
      by_cases hbefore : c.phase = .running
      · obtain ⟨y, hy, hy'⟩ := ih hbefore hfront
        exact ⟨y, List.mem_append_left _ hy, hy'⟩
      · exact ⟨x, List.mem_append_right _ (List.mem_singleton_self x), hstarts hbefore hp⟩
  | poll front now ih => exact ih hp hpast

end Controller

/-! ## Ticks of a session -/

/-- a tick at `now` is in time for a session with this history: it comes no sooner than one delay after the timer was armed
last, where the delay is the one in force since then; and the session has been started since anything suspended it -/
structure OnTime (history : List Applied) (now : Instant) : Prop where
  due : ∃ earlier last later, history = earlier ++ last :: later ∧ last.arms = true ∧
    (∀ e ∈ later, e.arms = false ∧ e.after = .running ∧ e.delay = last.delay) ∧ last.moment + last.delay.total ≤ now
  started : ∀ earlier e later, history = earlier ++ e :: later → e.suspends = true → ∃ x ∈ later, x.starts = true

namespace Session

open Controller (Reached)

variable {I L P : Type} [Interpreter I] [Loader L I] [Presenter P] {c : Controller I L P} {s t : Session I L P}
  {past : List Applied} {as before after : List Act} {es : List Command} {now : Instant}

/-- **No stale tick.** Whatever happens to the session of a controller, and whenever: where its task applies a tick the
session is running, and the tick is in time for the history of the controller, which is what was done with it before it
was handed over and what the task had it do since. -/
theorem runs_onTime (hc : Reached past c) (hs : spawn? c = some s) (h : Runs s as es t)
    (has : as = before ++ .tick now :: after) :
    ∃ since fs r, Runs s before fs r ∧ since.map Applied.asked = before.map Act.asked ∧
      Reached (past ++ since) r.controller ∧ r.controller.phase = .running ∧ OnTime (past ++ since) now := by
  obtain ⟨fs, r, now', hr, hacts⟩ := h.cut has
  have hcontroller : s.controller = c := by rw [spawn?_eq hs]
  obtain ⟨rfl, hready⟩ := acts_tick_ready hacts
  have halive : r.status ≠ .crashed := by
    have hgoing := (acts_tick hacts).1
    rintro hcrashed
    simp [isAlive, hcrashed] at hgoing
  obtain ⟨since, hsince, hreached⟩ := hr.reached (hcontroller ▸ hc) halive
  have hrunning : r.controller.phase = .running := hreached.steady.1.running_of_ready hready
  obtain ⟨last, hlast⟩ := hreached.armedBy hrunning
  obtain ⟨earlier, later, hplace, hlater⟩ := hlast.place
  refine ⟨since, fs, r, hr, hsince, hreached, hrunning, ⟨earlier, last, later, hplace, hlast.arms, hlater, ?_⟩, ?_⟩
  · rw [← hlast.delay]
    exact hlast.armedAt.le_of_ready hready
  · intro earlier e later hsplit hsuspends
    exact hreached.started hrunning hsplit hsuspends

/-- a run that is paused and resumed: nothing happens at the old due time of 90 ms, and the tick comes one delay after the
resume -/
theorem runs_onTime_resumed :
    let before : List Act := [.dispatch 0 ⟨0, .run⟩, .dispatch 50000000 ⟨1, .pause⟩, .dispatch 60000000 ⟨2, .resume⟩]
    ∃ (s t : Session Recital (List Recital) Unit) (as : List Act) (es : List Command),
      Reached [] (Controller.ofConfig {} [{}] () : Controller Recital (List Recital) Unit) ∧
        spawn? (Controller.ofConfig {} [{}] ()) = some s ∧ Runs s as es t ∧ as = before ++ .tick 150000000 :: [] ∧
        ∃ since fs r, Runs s before fs r ∧ since.map Applied.asked = before.map Act.asked ∧
          Reached ([] ++ since) r.controller ∧ r.controller.phase = .running ∧ OnTime ([] ++ since) 150000000 := by
  intro before
  let s : Session Recital (List Recital) Unit :=
    { controller := Controller.ofConfig {} [{}] (), capacity := 32, watch := { phase := .idle } }
  have hs : spawn? (Controller.ofConfig {} [{}] ()) = some s := rfl
  have hrun := ((((runs_request (s := s) 0 .run rfl).trans (runs_request 50000000 .pause rfl)).trans
    (runs_request 60000000 .resume rfl)).trans (Step.turn _ 90000000).runs).trans (Step.turn _ 150000000).runs
  refine ⟨s, _, _, _, .new _ _ _, hs, hrun, by decide, ?_⟩
  exact runs_onTime (.new _ _ _) hs hrun (show _ = before ++ .tick 150000000 :: [] by decide)

end Session

end StepControl

/-
Where the clock ends.

A due time is laid down at the first poll after the arming, by the task and not by the operation that armed the timer; and when
a tick is taken the timer is set for the next one. Where the task would have to name an instant beyond the clock to do so it
breaks down, after the intent that armed the timer was answered. With an interpreter that never breaks down there is no other
way for a task to end so.

- `Timer.poll_overflow_iff`: a timer overflows just where one of these instants lies beyond the clock (`Timer.Beyond`).
- `Controller.Reached.beyond`: then the history of the controller armed it for such a time (`Applied.ArmsBeyond`), or the clock
  is no further from its end than a delay, or the tolerance, or past what timers count (`Delay.Overshoots`).
- `Session.turn_crashed_iff`: a turn breaks down just where the task is about to ask such a timer (`Session.Doomed`).
- `RunsBy.crashed_beyond`: a task that broke down asked such a timer, at an instant no later than any turn of the run.
- `Session.runs_lasting`: so a session outlasts everything but a due time beyond the clock. Until then it answers what it is
  asked, and it gives its controller back.
- `Session.longest_delay_crashes`: the longest delay there is is admitted, and breaks the task down.

The interpreter never breaks down (`SoundInterpreter`). Delays, intents, the order of all that happens, and the instants, also
those to which the clock jumps, are arbitrary.
-/
import StepControl.Proofs.Settling

namespace StepControl

open StepControl.Action

/-! ## Due times beyond the clock -/

/-- the timer was armed for a first due time that the clock cannot name -/
def Applied.ArmsBeyond (e : Applied) : Prop :=
  e.arms = true ∧ Instant.limit ≤ Instant.rounded (e.moment + e.delay.total)

instance (e : Applied) : Decidable e.ArmsBeyond := inferInstanceAs (Decidable (_ ∧ _))

/-- timers have come to the end of their count, or a delay after `now`, or once the tolerance is over, the clock has ended -/
def Delay.Overshoots (now : Instant) (d : Delay) : Prop :=
  Instant.counted ≤ now ∨ Instant.limit ≤ Instant.rounded (now + max d.total Interval.tolerance)

instance (now : Instant) (d : Delay) : Decidable (d.Overshoots now) := inferInstanceAs (Decidable (_ ∨ _))

theorem Delay.Overshoots.mono {now later : Nat} {d : Delay} (h : d.Overshoots now) (hlater : now ≤ later) :
    d.Overshoots later := by
  rcases h with hcount | hend
  · exact Or.inl (Nat.le_trans hcount hlater)
  · exact Or.inr (Nat.le_trans hend (Instant.rounded_mono (Nat.add_le_add_right hlater _)))

def Delay.longest : Delay := ⟨⟨18446744073709551615, 999999999, by decide⟩, by decide +kernel⟩

/-- an interval has a tick too many to give only where a delay, or the tolerance, goes beyond the clock -/
theorem Interval.Ends.overshoots {now : Nat} {i : Interval} (h : i.Ends now) (hdue : i.due ≤ now) :
    i.period.Overshoots now := by
  right
  have htolerance : i.due + tolerance ≤ now + max i.period.total tolerance :=
    Nat.add_le_add hdue (Nat.le_max_right _ _)
  have hperiod : i.due + i.period.total ≤ now + max i.period.total tolerance :=
    Nat.add_le_add hdue (Nat.le_max_left _ _)
  rcases h with hend | hnext
  · calc
      Instant.limit ≤ i.due + tolerance := hend
      _ ≤ now + max i.period.total tolerance := htolerance
      _ ≤ _ := Instant.le_rounded _
  · unfold setFor at hnext
    split at hnext
    · refine Nat.le_trans hnext (Instant.rounded_mono ?_)
      unfold take
      dsimp only
      split
      · exact hperiod
      · exact Nat.add_le_add_left (Nat.le_max_left _ _) now
    · next hunnamed =>
      have hbeyond : Instant.limit ≤ i.due + i.period.total := Nat.le_of_not_lt fun hlt => hunnamed (Or.inr hlt)
      exact Nat.le_trans (Nat.le_trans hbeyond hperiod) (Instant.le_rounded _)

namespace Timer

variable {t : Timer} {now armed : Instant}

/-- asked for a tick at `now`, the timer would have to name an instant beyond the clock: its first due time, if that was not
laid down, or one that comes of the tick that is due -/
def Beyond (now : Instant) (t : Timer) : Prop :=
  ∃ s, t.schedule = some s ∧
    ((s.interval = none ∧ Instant.limit ≤ Instant.rounded (s.armedAt + t.delay.total)) ∨
      ∃ i, s.interval? t.delay = some i ∧ i.due ≤ now.whole ∧ i.Ends now)

/-- an interval cannot be laid down where it would begin beyond the clock -/
theorem interval?_eq_none_iff (delay : Delay) (s : Schedule) :
    s.interval? delay = none ↔ s.interval = none ∧ Instant.limit ≤ Instant.rounded (s.armedAt + delay.total) := by
  unfold Schedule.interval?
  cases s.interval with
  | some i => simp
  | none => simp

/-- **A timer overflows where it would have to name an instant beyond the clock**, and nowhere else. -/
theorem poll_overflow_iff : (t.poll now).1 = .overflow ↔ t.Beyond now := by
  constructor
  · intro hpoll
    have hanswered := t.poll_answered now
    generalize t.poll now = p at hanswered hpoll
    cases hanswered with
    | @unlaid s armed unlaid => exact ⟨s, armed, Or.inl ((interval?_eq_none_iff _ s).1 unlaid)⟩
    | @ends s i armed laid due ends => exact ⟨s, armed, Or.inr ⟨i, laid, due, ends⟩⟩
    | _ => cases hpoll
  · rintro ⟨s, hs, hfirst | ⟨i, hi, hdue, hends⟩⟩
    · rw [poll_overflow hs ((interval?_eq_none_iff _ s).2 hfirst)]
    · rw [poll_ends hs hi hdue hends]

instance (now : Instant) (t : Timer) : Decidable (t.Beyond now) := decidable_of_iff _ poll_overflow_iff

end Timer

variable {I L P : Type} [Interpreter I] [Loader L I] [Presenter P]

/-- **A timer that is set for a time beyond the clock was armed for it**, by an operation of the controller's history, unless
the clock has come near its end. -/
theorem Controller.Reached.beyond {past : List Applied} {c : Controller I L P} {now : Instant}
    (h : Controller.Reached past c) (hb : c.timer.Beyond now) :
    (∃ e ∈ past, e.ArmsBeyond) ∨ c.delay.Overshoots now := by
  obtain ⟨s, hs, ⟨-, hfirst⟩ | ⟨i, hi, hdue, hends⟩⟩ := hb
  · have hrunning : c.phase = .running := h.steady.1.timer.1 (by simp [Timer.isActive, hs])
    obtain ⟨last, hlast⟩ := h.armedBy hrunning
    obtain ⟨earlier, later, hplace, -⟩ := hlast.place
    obtain ⟨s', hs', harmed, -⟩ := hlast.armedAt.schedule
    obtain rfl : s = s' := Option.some.inj (hs.symm.trans hs')
    rw [harmed, hlast.delay] at hfirst
    exact Or.inl ⟨last, by simp [hplace], hlast.arms, hfirst⟩
  · have hperiod : i.period = c.delay := h.even.interval? hs hi
    exact Or.inr (hperiod ▸ hends.overshoots (Nat.le_trans hdue (Instant.whole_le now)))

namespace Session

open Controller (Reached)

variable {c : Controller I L P} {s t : Session I L P} {past : List Applied} {as : List Act} {es : List Command}
  {now horizon : Instant}

/-! ## How a task breaks down -/

/-- the task goes on and has nothing to serve, so that in a turn at `now` it asks its timer for a tick; and this would have to
name an instant beyond the clock -/
structure Doomed (now : Instant) (s : Session I L P) : Prop where
  status : s.status = .alive
  going : s.cancelled = false
  inbox : s.inbox = []
  held : s.abandoned = false
  beyond : s.controller.timer.Beyond now

variable [SoundInterpreter I]

theorem serve_alive (hs : s.status = .alive) (now : Instant) (command : Command) : (s.serve now command).status = .alive := by
  obtain ⟨result, hresult⟩ := Option.isSome_iff_exists.1
    ((Controller.oblivious_dispatch now command.intent).returns s.controller)
  rw [serve_some hresult]
  exact hs

omit [Loader L I] in
theorem serveTick_alive (hs : s.status = .alive) (now : Instant) (timer : Timer) :
    (s.serveTick now timer).status = .alive := by
  obtain ⟨outcome, houtcome⟩ := Option.isSome_iff_exists.1 ((Controller.oblivious_tick now).returns { s.controller with timer })
  rw [serveTick_some houtcome]
  exact hs

/-- a turn that breaks down is one of a doomed task; it applies nothing, and leaves the controller as it was -/
theorem Turned.crashed (h : Turned now s as t) (ht : t.status = .crashed) :
    (s.status = .crashed ∨ Doomed now s) ∧ as = [] ∧ t.controller = s.controller := by
  cases h with
  | idle status => exact ⟨Or.inl ht, rfl, rfl⟩
  | finish status reason => cases ht
  | @serve command rest status going inbox =>
    have halive : ({ s with inbox := rest }.serve now command).status = .alive :=
      serve_alive (s := { s with inbox := rest }) status now command
    simp [halive] at ht
  | @tick timer status going inbox held poll => simp [serveTick_alive status now timer] at ht
  | overflow status going inbox held poll =>
    have hpoll : (s.controller.timer.poll now).1 = .overflow := by rw [poll]
    exact ⟨Or.inr ⟨status, going, inbox, held, Timer.poll_overflow_iff.1 hpoll⟩, rfl, rfl⟩
  | park status going inbox held => simp [status] at ht

/-- **A task breaks down in its turn just where it is doomed.** -/
theorem turn_crashed_iff (now : Instant) (s : Session I L P) :
    (s.turn now).2.status = .crashed ↔ s.status = .crashed ∨ Doomed now s := by
  constructor
  · intro ht
    exact ((turn_turned now s).crashed ht).1
  · rintro (hover | hdoomed)
    · rw [turn_over (by simp [hover])]
      exact hover
    · have hpoll : (s.controller.timer.poll now).1 = .overflow := Timer.poll_overflow_iff.2 hdoomed.beyond
      rw [turn_poll hdoomed.status hdoomed.going hdoomed.inbox hdoomed.held]
      generalize s.controller.timer.poll now = p at hpoll ⊢
      obtain ⟨answer, timer⟩ := p
      obtain rfl : answer = .overflow := hpoll
      rfl

/-- **What broke down asked a timer that was set for a time beyond the clock**, and did so in one of the turns of the run. -/
theorem RunsBy.crashed_beyond (h : RunsBy horizon s as es t) (hs : s.status ≠ .crashed) (ht : t.status = .crashed) :
    ∃ now, now ≤ horizon ∧ t.controller.timer.Beyond now := by
  induction h with
  | refl => exact absurd ht hs
  | @turn as es t front now before ih =>
    obtain ⟨hwhy, -, hsame⟩ := (turn_turned now t).crashed ht
    rw [hsame]
    rcases hwhy with hover | hdoomed
    · exact ih hover
    · exact ⟨now, before, hdoomed.beyond⟩
  | aside front last controller status ih =>
    rw [controller]
    exact ih (status ▸ ht)

/-- a controller whose task broke down was armed beyond the clock, or the clock has come near its end -/
theorem RunsBy.crashed_overshoots (h : RunsBy horizon s as es t) (hs : s.status ≠ .crashed) (ht : t.status = .crashed)
    (hc : Reached past t.controller) : (∃ e ∈ past, e.ArmsBeyond) ∨ t.controller.delay.Overshoots horizon := by
  obtain ⟨now, hnow, hbeyond⟩ := h.crashed_beyond hs ht
  exact (hc.beyond hbeyond).imp_right fun hover => hover.mono hnow

/-! ## Sessions that last -/

/-- what the task did with the controller is in its history, also where the task broke down -/
theorem Step.history (h : Step s as es t) (hc : Reached past s.controller) :
    ∃ since, since.map Applied.asked = as.map Act.asked ∧ Reached (past ++ since) t.controller := by
  by_cases ht : t.status = .crashed
  case neg => exact h.reached hc ht
  have hsame : as = [] ∧ t.controller = s.controller := by
    cases h with
    | turn now => exact ((turn_turned now s).crashed ht).2
    | _ => exact ⟨rfl, rfl⟩
  obtain ⟨rfl, hcontroller⟩ := hsame
  refine ⟨[], rfl, ?_⟩
  rwa [hcontroller, List.append_nil]

theorem Runs.history (h : Runs s as es t) (hc : Reached past s.controller) :
    ∃ since, since.map Applied.asked = as.map Act.asked ∧ Reached (past ++ since) t.controller := by
  induction h with
  | refl => exact ⟨[], rfl, by simpa using hc⟩
  | snoc _ last ih =>
    obtain ⟨since, hsince, hreached⟩ := ih
    obtain ⟨more, hmore, hnext⟩ := last.history hreached
    refine ⟨since ++ more, ?_, ?_⟩
    · rw [List.map_append, List.map_append, hsince, hmore]
    · rwa [← List.append_assoc]

omit [SoundInterpreter I] in
/-- the inbox keeps its size -/
theorem Step.capacity_eq (h : Step s as es t) : t.capacity = s.capacity := by
  cases h with
  | turn now => exact (turn_turned now s).fixed.1
  | _ => rfl

omit [SoundInterpreter I] in
theorem Runs.capacity_eq (h : Runs s as es t) : t.capacity = s.capacity := by
  induction h with
  | refl => rfl
  | snoc _ last ih => exact last.capacity_eq.trans ih

omit [SoundInterpreter I] in
/-- a task that settled and goes on has replied to all that it was asked -/
theorem Runs.settle_replies (h : Runs s as es t) (hs : spawn? c = some s) (ht : t.status = .alive) (hgoing : t.cancelled = false)
    (hheld : t.abandoned = false) (hsettled : (t.settle now).status = .alive) :
    (t.settle now).replies.map Prod.fst = List.range t.tickets := by
  have hstarted : 0 < s.capacity ∧ s.line = List.range s.tickets := by
    rw [spawn?_eq hs]
    exact ⟨Nat.lt_of_lt_of_le Nat.one_pos (Nat.le_max_right ..), rfl⟩
  obtain ⟨hroom, hline⟩ := hstarted
  have htidy : Tidy t.tickets t := tidy_alive ht ⟨hgoing, hheld⟩ (h.capacity_eq ▸ hroom) rfl
  have hease := htidy.settle now
  obtain ⟨bs, fs, hsettle⟩ := leads_settle now t
  have hwhole := (h.trans hsettle).whole (fun _ => hline) hsettled
  rwa [line, hease.inbox, hease.waiting, List.append_nil, List.map_nil, List.append_nil, hease.tickets] at hwhole

/-- a session with this history, whose task took no turn after `horizon`, lasts unless the history set its timer for a time
beyond the clock, or the clock has come near its end -/
structure Lasting (horizon : Instant) (history : List Applied) (s : Session I L P) : Prop where
  /-- the task broke down over such a time, or not at all -/
  sturdy : s.status = .crashed → (∃ e ∈ history, e.ArmsBeyond) ∨ s.controller.delay.Overshoots horizon
  /-- where it has to name such an instant in its next turn, and only there, it breaks down in it; of a clock that has come
  near its end this is not said, since ticks may have been put off there (`Interval.farOff`) -/
  breaks : ¬ s.controller.delay.Overshoots horizon → ∀ now, now < Instant.counted →
    ((s.turn now).2.status = .crashed ↔ s.status = .crashed ∨ Doomed now s)
  /-- a task that goes on replies to all that it was asked -/
  answers : s.status = .alive → s.cancelled = false → s.abandoned = false → ∀ now, (s.settle now).status = .alive →
    (s.settle now).replies.map Prod.fst = List.range s.tickets
  /-- a session that did not break down gives its controller back -/
  handover : s.status ≠ .crashed → ∀ now, (s.shutdown now).1 = .ok s.controller

/-- **A session outlasts all but a due time beyond the clock.** Whatever the delays and intents, and however time passes, the
task of a session breaks down only where its timer was armed for an instant that the clock cannot name, or takes a tick so near
the end of the clock that a delay, or the tolerance, goes beyond it; until then it goes on to answer what it is asked, and it
gives its controller back. -/
theorem runs_lasting (hc : Reached past c) (hs : spawn? c = some s) (h : RunsBy horizon s as es t) :
    ∃ since, since.map Applied.asked = as.map Act.asked ∧ Reached (past ++ since) t.controller ∧
      Lasting horizon (past ++ since) t := by
  have hstarted : s.controller = c ∧ s.status ≠ .crashed := by
    rw [spawn?_eq hs]
    exact ⟨rfl, by simp⟩
  obtain ⟨hcontroller, hwhole⟩ := hstarted
  obtain ⟨since, hsince, hreached⟩ := h.runs.history (hcontroller ▸ hc)
  refine ⟨since, hsince, hreached, ?_, ?_, ?_, ?_⟩
  · intro ht
    exact h.crashed_overshoots hwhole ht hreached
  · intro _ now _
    exact turn_crashed_iff now t
  · intro ht hgoing hheld now hsettled
    exact h.runs.settle_replies hs ht hgoing hheld hsettled
  · intro ht now
    rw [shutdown_fst, if_neg ht]

/-- a run with the default delay that is started, ticks, and is stopped, all in the first 90 ms -/
theorem runs_lasting_default :
    ∃ (s t : Session Recital (List Recital) Unit) (as : List Act) (es : List Command),
      Reached [] (Controller.ofConfig {} [{}] () : Controller Recital (List Recital) Unit) ∧
        spawn? (Controller.ofConfig {} [{}] ()) = some s ∧ RunsBy 90000000 s as es t ∧
        (∃ since, since.map Applied.asked = as.map Act.asked ∧ Reached ([] ++ since) t.controller ∧
          Lasting 90000000 ([] ++ since) t) ∧
        as = [.dispatch 0 ⟨0, .run⟩, .tick 90000000, .dispatch 90000000 ⟨1, .stop⟩] ∧ t.status = .alive ∧
        ¬ t.controller.delay.Overshoots 90000000 := by
  let s : Session Recital (List Recital) Unit :=
    { controller := Controller.ofConfig {} [{}] (), capacity := 32, watch := { phase := .idle } }
  have hs : spawn? (Controller.ofConfig {} [{}] ()) = some s := rfl
  have hstart := runsBy_request (s := s) (Nat.zero_le 90000000) .run rfl
  have hrun := (hstart.turn 90000000 (Nat.le_refl _)).trans (runsBy_request (Nat.le_refl _) .stop (by decide +kernel))
  exact ⟨s, _, _, _, .new _ _ _, hs, hrun, runs_lasting (.new _ _ _) hs hrun, by decide +kernel, by decide +kernel,
    by decide +kernel⟩

/-- with a delay of half the time that there is, a tick in time does no harm; a tick that is taken late breaks the task down,
although its timer was not armed for a time beyond the clock -/
example :
    let half : Delay := ⟨⟨4611686018427387904, 0, by decide⟩, by decide +kernel⟩
    let s : Session Recital (List Recital) Unit :=
      { controller := (Controller.run 0 (Controller.ofConfig { stepDelay := half } [{}] ())).state
        capacity := 32, watch := { phase := .running } }
    (s.turn half.total).2.status = .alive ∧ (s.turn (half.total + 6 * nanosPerMilli)).2.status = .crashed := by
  decide +kernel

/-- **The longest delay is admitted, and brings the task down.** The start is answered; then the task breaks down over its
first due time, the stop that is sent next is never served, and the controller is lost. -/
theorem longest_delay_crashes :
    Delay.ofSpan Delay.longest.span = .ok .longest ∧
      ∃ s : Session Recital (List Recital) Unit,
        spawn? (Controller.ofConfig { stepDelay := .longest } [{}] ()) = some s ∧
          let ran := (s.post .run).2.settle 0
          ran.reply? 0 = some (.ok ()) ∧ ran.status = .crashed ∧
            ((ran.post .stop).2.settle 0).reply? 1 = some (.error .sessionClosed) ∧
            (ran.shutdown 0).1.isOk = false := by
  refine ⟨dif_pos Delay.longest.positive, _, rfl, ?_⟩
  decide +kernel

end Session

end StepControl

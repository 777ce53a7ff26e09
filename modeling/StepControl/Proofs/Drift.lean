/-
The cadence of a schedule, and how far it drifts.

(1) Courses. When a schedule gives its next tick depends on how late it was asked for the last one. `Course` is this
recursion over numbers: the ticks that a timer gave since it was armed, and the instant for which it is set.
- `Course.le_due`: a course never gains on the clock.
- `Course.due_eq`: it keeps the clock as long as no tick is taken more than the tolerance after its due time, and then a
  course of ticks that are taken when they are due is counted by the clock (`Course.length_eq`).
- `Course.spaced`, `Course.window`: it never makes up for more than the tolerance.

(2) Rides. A session rides on a schedule (`Session.Rides`) as long as none of the commands that its task serves touches the
timer; what else happens, and when the task takes its turns, does not matter, and neither does it whether the controller is
handed over to another task on the way.
- `Session.Underway.step` / `Session.Rides.underway`: the ticks of a ride are a course.
- `Controller.tick_calls`, `Session.Step.steps_tick`: each tick is one step of the interpreter, at the instant of the tick.

(3) Left alone on the virtual clock. `Session.AtEase.paces`: a session takes one step in the millisecond in which each delay
ends, and where the arming and the delay are whole milliseconds, right at its end (`Session.Paces`).

`Session.rides_inCadence` is (2) and (3) together; `Session.rides_inCadence_late` is a ride whose first tick is taken 3 ms
late.

Premises: the timer was armed and gave no tick since (`Timer.Fresh`), and in (3) the clock stands at a whole millisecond.
That a tick taken late by no more than the tolerance does not move the next one is the timer's (`Interval.take`). The
interpreter may break down, and then the ride is over.
-/
import StepControl.Proofs.Rhythm

namespace StepControl

open StepControl.Action

/-! ## Courses

Instants are written as the numbers that they are here. -/

/-- a tick: for when it was due, and when it was taken -/
structure Taken where
  due : Nat
  moment : Nat
  deriving DecidableEq, Repr

/-- the tick was taken late by no more than the tolerance -/
def Taken.Soon (x : Taken) : Prop := x.moment ≤ x.due + Interval.tolerance

instance (x : Taken) : Decidable x.Soon := inferInstanceAs (Decidable (_ ≤ _))

def Taken.within (start length : Nat) (x : Taken) : Bool := start ≤ x.moment && x.moment ≤ start + length

/-- when the next tick is due, where the one that was due at `due` is taken at `now` -/
def dueAfter (delay : Delay) (due now : Nat) : Nat := (Interval.take now ⟨delay, due⟩).due

/-- the ticks that a timer gave since it was armed at `armed`, oldest first, and when its next tick is due -/
inductive Course (armed : Nat) (delay : Delay) : List Taken → Nat → Prop where
  | armed : Course armed delay [] (armed + delay.total)
  | tick {ticks : List Taken} {due now : Nat} (front : Course armed delay ticks due) (ready : due ≤ now) :
      Course armed delay (ticks ++ [⟨due, now⟩]) (dueAfter delay due now)

section

variable {delay : Delay} {due now : Nat}

theorem dueAfter_soon (h : now ≤ due + Interval.tolerance) : dueAfter delay due now = due + delay.total := if_pos h

theorem dueAfter_late (h : ¬ now ≤ due + Interval.tolerance) : dueAfter delay due now = now + delay.total := if_neg h

/-- due times are at least one delay apart -/
theorem le_dueAfter (delay : Delay) (due now : Nat) : due + delay.total ≤ dueAfter delay due now := by
  by_cases hsoon : now ≤ due + Interval.tolerance
  · exact Nat.le_of_eq (dueAfter_soon hsoon).symm
  · rw [dueAfter_late hsoon]
    omega

/-- the next tick is due one delay after the last was taken, or sooner by the tolerance at most -/
theorem dueAfter_ge (delay : Delay) (due now : Nat) :
    now + delay.total ≤ dueAfter delay due now + Interval.tolerance := by
  by_cases hsoon : now ≤ due + Interval.tolerance
  · rw [dueAfter_soon hsoon]
    omega
  · rw [dueAfter_late hsoon]
    omega

end

namespace Course

variable {armed : Nat} {delay : Delay} {ticks : List Taken} {due : Nat}

/-- what was until a tick is a course, with the tick to come next -/
theorem take (h : Course armed delay ticks due) (k : Nat) (hk : k < ticks.length) :
    Course armed delay (ticks.take k) ticks[k].due ∧ ticks[k].due ≤ ticks[k].moment := by
  induction h with
  | armed => simp at hk
  | @tick front due now hfront ready ih =>
    rw [List.length_append, List.length_singleton] at hk
    rcases Nat.lt_succ_iff_lt_or_eq.1 hk with hlt | rfl
    · rw [List.take_append_of_le_length (Nat.le_of_lt hlt), List.getElem_append_left hlt]
      exact ih hlt
    · rw [List.take_left, List.getElem_concat_length rfl]
      exact ⟨hfront, ready⟩

/-- a delay for every tick, and one for the next -/
theorem delays_succ (armed : Nat) (delay : Delay) (front : List Taken) (x : Taken) :
    armed + ((front ++ [x]).length + 1) * delay.total = armed + (front.length + 1) * delay.total + delay.total := by
  rw [List.length_append, List.length_singleton, Nat.add_mul (front.length + 1), Nat.one_mul, Nat.add_assoc]

/-- **A course never gains on the clock.** -/
theorem le_due (h : Course armed delay ticks due) : armed + (ticks.length + 1) * delay.total ≤ due := by
  induction h with
  | armed => simp
  | @tick front due now _ ready ih =>
    calc
      armed + ((front ++ [(⟨due, now⟩ : Taken)]).length + 1) * delay.total
          = armed + (front.length + 1) * delay.total + delay.total := delays_succ armed delay front _
      _ ≤ due + delay.total := Nat.add_le_add_right ih _
      _ ≤ dueAfter delay due now := le_dueAfter delay due now

/-- **A course does not drift** as long as no tick is taken later than the tolerance allows. -/
theorem due_eq (h : Course armed delay ticks due) (hsoon : ∀ x ∈ ticks, x.Soon) :
    due = armed + (ticks.length + 1) * delay.total := by
  induction h with
  | armed => simp
  | @tick front due now _ ready ih =>
    have hlast : now ≤ due + Interval.tolerance := hsoon ⟨due, now⟩ (by simp)
    have hdue := ih fun x hx => hsoon x (List.mem_append_left _ hx)
    calc
      dueAfter delay due now = due + delay.total := dueAfter_soon hlast
      _ = armed + (front.length + 1) * delay.total + delay.total := congrArg (· + delay.total) hdue
      _ = armed + ((front ++ [(⟨due, now⟩ : Taken)]).length + 1) * delay.total := (delays_succ armed delay front _).symm

/-- **Ticks taken when they are due are counted by the clock.** -/
theorem length_eq (h : Course armed delay ticks due) {now : Nat} (hnow : now < due)
    (hprompt : ∀ x ∈ ticks, x.moment = x.due ∧ x.moment ≤ now) : ticks.length = (now - armed) / delay.total := by
  have hsoon : ∀ x ∈ ticks, x.Soon := fun x hx => by
    rw [Taken.Soon, (hprompt x hx).1]
    exact Nat.le_add_right _ _
  have hnext := h.due_eq hsoon
  have hlast : ticks.length * delay.total ≤ now - armed := by
    rcases List.eq_nil_or_concat' ticks with rfl | ⟨front, x, rfl⟩
    · simp
    · have hlength : (front ++ [x]).length = front.length + 1 := by simp
      obtain ⟨hfront, -⟩ := h.take front.length (by rw [hlength]; exact Nat.lt_succ_self _)
      rw [List.take_left, List.getElem_concat_length rfl] at hfront
      obtain ⟨hdue, hbefore⟩ := hprompt x (by simp)
      have hlate := hfront.due_eq fun y hy => hsoon y (List.mem_append_left _ hy)
      rw [hlength]
      omega
  have hpositive : 0 < (ticks.length + 1) * delay.total := Nat.mul_pos (Nat.succ_pos _) delay.positive
  refine (Nat.div_eq_of_lt_le hlast ?_).symm
  omega

/-- after each tick there is a delay for every tick since, but for the tolerance -/
theorem spaced_due (h : Course armed delay ticks due) (i : Nat) (hi : i < ticks.length) :
    ticks[i].moment + (ticks.length - i) * delay.total ≤ due + Interval.tolerance := by
  induction h with
  | armed => simp at hi
  | @tick front due now _ ready ih =>
    have hlength : (front ++ [(⟨due, now⟩ : Taken)]).length = front.length + 1 := by simp
    rw [hlength] at hi
    simp only [hlength]
    rcases Nat.lt_succ_iff_lt_or_eq.1 hi with hlt | rfl
    · have hbefore := ih hlt
      have hnext := le_dueAfter delay due now
      rw [List.getElem_append_left hlt, Nat.succ_sub (Nat.le_of_lt hlt), Nat.succ_mul]
      omega
    · rw [List.getElem_concat_length rfl, Nat.add_sub_cancel_left, Nat.one_mul]
      exact dueAfter_ge delay due now

/-- **A course never makes up for more than the tolerance.** -/
theorem spaced (h : Course armed delay ticks due) (i j : Nat) (hij : i < j) (hj : j < ticks.length) :
    ticks[i].moment + (j - i) * delay.total ≤ ticks[j].moment + Interval.tolerance := by
  obtain ⟨hfront, hready⟩ := h.take j hj
  have hlength : (ticks.take j).length = j := List.length_take_of_le (Nat.le_of_lt hj)
  have hspaced := hfront.spaced_due i (hlength.symm ▸ hij)
  simp only [List.getElem_take, hlength] at hspaced
  calc
    ticks[i].moment + (j - i) * delay.total ≤ ticks[j].due + Interval.tolerance := hspaced
    _ ≤ ticks[j].moment + Interval.tolerance := Nat.add_le_add_right hready _

/-- the ticks of a stretch of time: that many delays lie between its start and the next due time, but for the tolerance -/
theorem window (h : Course armed delay ticks due) (start length : Nat) :
    (0 < (ticks.filter (Taken.within start length)).length →
        start + (ticks.filter (Taken.within start length)).length * delay.total ≤ due + Interval.tolerance) ∧
      (ticks.filter (Taken.within start length)).length ≤ 1 + (length + Interval.tolerance) / delay.total := by
  induction h with
  | armed => exact ⟨fun h => absurd h (Nat.lt_irrefl 0), Nat.zero_le _⟩
  | @tick front due now _ ready ih =>
    have hnext := le_dueAfter delay due now
    have hlate := dueAfter_ge delay due now
    obtain ⟨hsum, hcount⟩ := ih
    rw [List.filter_append, List.length_append]
    generalize (front.filter (Taken.within start length)).length = n at hsum hcount ⊢
    cases hin : Taken.within start length ⟨due, now⟩ with
    | false =>
      rw [List.filter_singleton, hin]
      exact ⟨fun hpos => Nat.le_trans (hsum hpos) (by omega), hcount⟩
    | true =>
      obtain ⟨hstart, hend⟩ : start ≤ now ∧ now ≤ start + length := by simpa [Taken.within] using hin
      rw [List.filter_singleton, hin]
      show (0 < n + 1 → start + (n + 1) * delay.total ≤ _) ∧ n + 1 ≤ _
      rw [Nat.succ_mul]
      rcases Nat.eq_zero_or_pos n with rfl | hpos
      · exact ⟨fun _ => by omega, Nat.le_add_right 1 _⟩
      · have hbefore := hsum hpos
        have hfits : n ≤ (length + Interval.tolerance) / delay.total :=
          (Nat.le_div_iff_mul_le (show 0 < delay.total from delay.positive)).2 (by omega)
        exact ⟨fun _ => by omega, by omega⟩

end Course

/-! ## Timers on their way -/

namespace Timer

variable {t u : Timer} {armed now : Instant} {delay : Delay} {ticks : List Taken}

/-- the timer was armed at `armed` and gave no tick since; it may have been asked for one -/
def Fresh (armed : Instant) (t : Timer) : Prop :=
  ∃ s, t.schedule = some s ∧ s.armedAt = armed ∧ ∀ i, s.interval = some i → i = ⟨t.delay, armed + t.delay.total⟩

theorem fresh_of_armed (h : t.schedule = some { armedAt := armed }) : t.Fresh armed := ⟨_, h, rfl, nofun⟩

/-- as long as the timer is armed, its next tick is due as the course of its ticks says -/
def Follows (armed : Instant) (delay : Delay) (ticks : List Taken) (t : Timer) : Prop :=
  ∀ s, t.schedule = some s →
    t.delay = delay ∧ ∀ i, s.interval? t.delay = some i → i.period = delay ∧ Course armed delay ticks i.due

theorem follows_off (h : t.schedule = none) : Follows armed delay ticks t := by
  intro s hs
  rw [h] at hs
  cases hs

theorem Fresh.interval?_eq (h : t.Fresh armed) : ∃ s, t.schedule = some s ∧ s.armedAt = armed ∧
    ∀ i, s.interval? t.delay = some i → i = ⟨t.delay, armed + t.delay.total⟩ := by
  obtain ⟨s, hs, harmed, hlaid⟩ := h
  refine ⟨s, hs, harmed, ?_⟩
  intro i hi
  rcases Schedule.interval?_cases hi with hbefore | ⟨-, rfl⟩
  · exact hlaid i hbefore
  · rw [harmed]

theorem Fresh.follows (h : t.Fresh armed) : Follows armed t.delay [] t := by
  obtain ⟨s, hs, -, hdue⟩ := h.interval?_eq
  intro s' hs'
  obtain rfl : s = s' := Option.some.inj (hs.symm.trans hs')
  refine ⟨rfl, ?_⟩
  intro i hi
  rw [hdue i hi]
  exact ⟨rfl, .armed⟩

/-- it does not matter whether the interval is laid down -/
theorem Follows.of_laid (h : Follows armed delay ticks t) (hlaid : u.laid = t.laid) : Follows armed delay ticks u := by
  intro s hs
  have hschedule : t.laid.schedule = some { s with interval := s.interval? u.delay } := by
    rw [← hlaid]
    simp [laid, hs]
  obtain ⟨s', hs', hsame⟩ := Option.map_eq_some_iff.1 hschedule
  obtain ⟨-, hinterval⟩ := Schedule.mk.inj hsame
  rw [← hinterval, delay_eq hlaid]
  exact h s' hs'

/-- a timer that gives a tick goes on from there -/
theorem Follows.gives (h : Follows armed delay ticks t) (hready : (t.poll now).1 = .ready) :
    ∃ due, t.due? = some due ∧ Course armed delay ticks due ∧ due ≤ now ∧
      Follows armed delay (ticks ++ [⟨due, now⟩]) (t.poll now).2 := by
  obtain ⟨s, i, hs, hi, hwhole, hpoll⟩ := ready_cases hready
  obtain ⟨hdelay, hlaid⟩ := h s hs
  obtain ⟨hperiod, hcourse⟩ := hlaid i hi
  have hdue : i.due ≤ now := Nat.le_trans hwhole (Instant.whole_le now)
  refine ⟨i.due, by simp [Timer.due?, hs, hi], hcourse, hdue, ?_⟩
  rw [hpoll]
  intro s' hs'
  cases hs'
  refine ⟨hdelay, ?_⟩
  intro i' hi'
  cases hi'
  have htick := hcourse.tick hdue
  rw [← hperiod] at htick ⊢
  exact ⟨rfl, htick⟩

end Timer

/-! ## Ticks are steps -/

def Call.isStep : Call → Bool
  | .next .. => true
  | _ => false

namespace Controller

variable {I L P : Type} [Interpreter I] [Presenter P] {c : Controller I L P} {now : Instant}

/-- a step asks the interpreter once, also where it halts or breaks down -/
theorem executeStep_calls (now : Instant) (h : Steady c) (hp : c.phase.canStep = true) : ∃ serial optimize hooks answer,
    calls ((executeStep now : Drive I L P Outcome) c).journal = [(serial, .next optimize hooks answer)] := by
  obtain ⟨inst, hl⟩ := h.exists_live (Or.inl (Phase.hasSession_of_canStep hp))
  refine ⟨inst.serial, c.optimize, (Interpreter.next inst.machine c.optimize).hooks,
    (Interpreter.next inst.machine c.optimize).ending.map (·.1), ?_⟩
  rcases hn : Interpreter.next inst.machine c.optimize with ⟨hooks, ending⟩
  cases ending with
  | none =>
    rw [executeStep_journal h hl hn, ← List.map_map, calls_cons_called, calls_noted]
    rfl
  | some ending =>
    obtain ⟨verdict, machine⟩ := ending
    have hgives : (executeStep now : Drive I L P Outcome).Gives c fun _ _ j =>
        calls j = [(inst.serial, .next c.optimize hooks (some verdict))] := by
      refine (gives_executeStep_end h hp hl hn now).imp ?_
      intro _ d j hend
      cases hend <;> simp
    obtain ⟨-, -, hcalls⟩ := hgives
    exact hcalls

/-- **A tick of a running session is one step.** -/
theorem tick_calls (now : Instant) (h : Steady c) (hp : c.phase = .running) : ∃ serial optimize hooks answer,
    calls (tick now c).journal = [(serial, .next optimize hooks answer)] := by
  rw [tick_running hp, map_apply]
  exact executeStep_calls now h (by rw [hp]; rfl)

end Controller

/-! ## Rides -/

namespace Session

variable {I L P : Type} [Interpreter I] [Loader L I] [Presenter P] {s t u : Session I L P} {armed now : Instant}
  {delay : Delay} {ticks : List Taken} {as : List Act} {es : List Command}

/-- the ticks among acts, for a task whose timer is set as it is in `s` -/
def taken (s : Session I L P) (acts : List Act) : List Taken :=
  acts.filterMap fun
    | .tick now => s.controller.timer.due?.map fun due => ⟨due, now⟩
    | .dispatch .. => none

/-- a run in which no command that is served touches the timer, and the ticks that were taken in it; the controller may be
handed from one task to the next -/
inductive Rides (s : Session I L P) : List Taken → Session I L P → Prop where
  | refl : Rides s [] s
  | snoc {ticks : List Taken} {as : List Act} {es : List Command} {t u : Session I L P} (front : Rides s ticks t)
      (last : Step t as es u)
      (spared : ∀ now command, as = [.dispatch now command] → u.controller.timer = t.controller.timer) :
      Rides s (ticks ++ t.taken as) u
  /-- the task gave the controller back, and whatever was done to it since left its timer alone -/
  | handed {ticks : List Taken} {past : List Applied} {t u : Session I L P} {c : Controller I L P}
      (front : Rides s ticks t) (ended : t.status = .finished) (reached : Controller.Reached past c)
      (spared : c.timer = t.controller.timer) (again : spawn? c = some u) : Rides s ticks u

/-- a turn that takes a tick leaves the timer on its way, or without a schedule, unless the controller breaks down -/
theorem serveTick_follows (hrooted : Rooted s) (hs : s.status = .alive) (hready : (s.controller.timer.poll now).1 = .ready)
    (h : s.controller.timer.Follows armed delay ticks) : ∃ due, s.controller.timer.due? = some due ∧
      Course armed delay ticks due ∧ due ≤ now ∧
      ((s.serveTick now (s.controller.timer.poll now).2).status ≠ .crashed →
        (s.serveTick now (s.controller.timer.poll now).2).controller.timer.Follows armed delay (ticks ++ [⟨due, now⟩])) := by
  obtain ⟨past, hc⟩ := hrooted hs
  obtain ⟨due, hdue, hcourse, hle, hnext⟩ := h.gives hready
  refine ⟨due, hdue, hcourse, hle, ?_⟩
  intro hwhole
  rcases (serveTick_timer (hc.poll now) hs hwhole).2 with ⟨-, hsame⟩ | ⟨-, hoff⟩
  · rw [hsame]
    exact hnext
  · exact Timer.follows_off hoff

/-- the ticks that were taken so far are a course, and the timer is on its way, unless the controller broke down -/
structure Underway (armed : Instant) (delay : Delay) (ticks : List Taken) (s : Session I L P) : Prop where
  course : ∃ due, Course armed delay ticks due
  follows : s.status ≠ .crashed → s.controller.timer.Follows armed delay ticks

/-- a step that applies nothing lays the interval of the timer down at most -/
theorem Step.laid_timer (hstep : Step s [] es t) (hwhole : t.status ≠ .crashed) :
    t.controller.timer.laid = s.controller.timer.laid := by
  generalize has : ([] : List Act) = as at hstep
  cases hstep with
  | turn now =>
    have hturn := turn_turned now s
    rw [← has] at hturn
    generalize (s.turn now).2 = t at hturn hwhole ⊢
    cases hturn with
    | idle status => rfl
    | finish status reason => rfl
    | overflow status going inbox held poll => exact absurd rfl hwhole
    | park status going inbox held =>
      refine Timer.laid_poll ?_
      intro hready
      have hacts : s.acts now = [.tick now] := by simp [acts, status, going, inbox, held, hready]
      rw [hacts] at has
      cases has
  | _ => rfl

/-- what a step applies: nothing, or the command that comes first, or a tick that is due -/
theorem Step.act_cases (hstep : Step s as es t) :
    as = [] ∨
      (∃ now command rest, as = [.dispatch now command] ∧ s.status = .alive ∧ t = { s with inbox := rest }.serve now command) ∨
      ∃ now, as = [.tick now] ∧ s.status = .alive ∧ (s.controller.timer.poll now).1 = .ready ∧
        t = s.serveTick now (s.controller.timer.poll now).2 := by
  by_cases hnone : as = []
  · exact Or.inl hnone
  · obtain ⟨now, rfl, -, rfl⟩ := hstep.eq_turn hnone
    have hturned := turn_turned now s
    generalize s.acts now = as at hnone hturned ⊢
    generalize (s.turn now).2 = t at hturned ⊢
    cases hturned with
    | @serve command rest status going inbox => exact Or.inr (Or.inl ⟨now, command, rest, rfl, status, rfl⟩)
    | tick status going inbox held poll => exact Or.inr (Or.inr ⟨now, rfl, status, by rw [poll], by rw [poll]⟩)
    | _ => exact absurd rfl hnone

/-- **What one step keeps**, where a command that is served leaves the timer alone. -/
theorem Underway.step (h : Underway armed delay ticks s) (hrooted : Rooted s) (hstep : Step s as es t)
    (spared : ∀ now command, as = [.dispatch now command] → t.controller.timer = s.controller.timer) :
    Underway armed delay (ticks ++ s.taken as) t := by
  rcases hstep.act_cases with rfl | ⟨now, command, rest, rfl, hs, rfl⟩ | ⟨now, rfl, hs, hready, rfl⟩
  · rw [show ticks ++ s.taken [] = ticks from List.append_nil ticks]
    refine ⟨h.course, fun hwhole => (h.follows ?_).of_laid (hstep.laid_timer hwhole)⟩
    exact mt hstep.crashed hwhole
  · rw [show ticks ++ s.taken [.dispatch now command] = ticks from List.append_nil ticks]
    refine ⟨h.course, ?_⟩
    intro _
    rw [spared now command rfl]
    exact h.follows (by simp [hs])
  · obtain ⟨due, hdue, hcourse, hle, hnext⟩ := serveTick_follows hrooted hs hready (h.follows (by simp [hs]))
    have htaken : s.taken [.tick now] = [⟨due, now⟩] := by simp [taken, hdue]
    rw [htaken]
    exact ⟨⟨_, hcourse.tick hle⟩, hnext⟩

/-- **The ticks of a ride are a course**, and the timer is on its way unless the controller broke down. -/
theorem Rides.underway (h : Rides s ticks t) (hrooted : Rooted s) (hfresh : s.controller.timer.Fresh armed) :
    Rooted t ∧ Underway armed s.controller.timer.delay ticks t := by
  induction h with
  | refl => exact ⟨hrooted, ⟨_, .armed⟩, fun _ => hfresh.follows⟩
  | snoc front last spared ih =>
    obtain ⟨hrooted', hunderway⟩ := ih
    exact ⟨hrooted'.leads last.leads, hunderway.step hrooted' last spared⟩
  | @handed ticks past t u c front ended reached spared again ih =>
    obtain ⟨-, hunderway⟩ := ih
    obtain rfl := spawn?_eq again
    refine ⟨fun _ => ⟨past, reached⟩, hunderway.course, ?_⟩
    intro _
    show c.timer.Follows armed _ ticks
    rw [spared]
    exact hunderway.follows (by simp [ended])

/-! ## Cadence -/

/-- the ticks of a schedule that was armed at `armed`; `next` is when the next one is due, while there is one to come -/
structure InCadence (armed : Nat) (delay : Delay) (ticks : List Taken) (next : Option Instant) : Prop where
  /-- no tick comes before its time -/
  paced : ∀ k (hk : k < ticks.length), armed + (k + 1) * delay.total ≤ ticks[k].moment
  /-- where no tick before was taken later than the tolerance allows, a tick is due a whole number of delays after the arming,
  and is taken then if the timer is asked then, at a whole millisecond -/
  steady : ∀ k (hk : k < ticks.length), (∀ i (hi : i < k), ticks[i].Soon) →
    ticks[k].due = armed + (k + 1) * delay.total
  /-- and so is the next one -/
  upcoming : ∀ due, next = some due → (∀ x ∈ ticks, x.Soon) → due = armed + (ticks.length + 1) * delay.total
  /-- where each tick was taken when it was due, and the next is not due yet, there have been as many as there were delays -/
  counted : ∀ due now, next = some due → now < due → (∀ x ∈ ticks, x.moment = x.due ∧ x.moment ≤ now) →
    ticks.length = (now - armed) / delay.total
  /-- of the delays between two ticks no more is lost than the tolerance -/
  spaced : ∀ i j (hij : i < j) (hj : j < ticks.length),
    ticks[i].moment + (j - i) * delay.total ≤ ticks[j].moment + Interval.tolerance
  /-- so in a stretch of time there are no more ticks than fit, and one -/
  window : ∀ start length, (ticks.filter (Taken.within start length)).length ≤
    1 + (length + Interval.tolerance) / delay.total

omit [Interpreter I] [Loader L I] [Presenter P] in
/-- the next tick that is to come comes after the course of the others -/
theorem Underway.next (h : Underway armed delay ticks s) {due : Instant} (hdue : s.due? = some due) :
    Course armed delay ticks due := by
  by_cases halive : s.status = .alive
  · rw [due?_alive halive] at hdue
    obtain ⟨schedule, hs, hlaid⟩ := Option.bind_eq_some_iff.1 hdue
    obtain ⟨i, hi, rfl⟩ := Option.map_eq_some_iff.1 hlaid
    obtain ⟨-, hcourse⟩ := h.follows (by simp [halive]) schedule hs
    exact (hcourse i hi).2
  · rw [due?_over halive] at hdue
    cases hdue

omit [Interpreter I] [Loader L I] [Presenter P] in
theorem Underway.inCadence (h : Underway armed delay ticks s) : InCadence armed delay ticks s.due? := by
  obtain ⟨due, hcourse⟩ := h.course
  refine ⟨?_, ?_, fun due hdue hsoon => (h.next hdue).due_eq hsoon,
    fun due now hdue => (h.next hdue).length_eq, hcourse.spaced, fun start length => (hcourse.window start length).2⟩
  · intro k hk
    obtain ⟨hfront, hready⟩ := hcourse.take k hk
    have hlate := hfront.le_due
    rw [List.length_take_of_le (Nat.le_of_lt hk)] at hlate
    exact Nat.le_trans hlate hready
  · intro k hk hsoon
    have hdue := (hcourse.take k hk).1.due_eq fun x hx => by
      obtain ⟨i, hi, rfl⟩ := List.mem_take_iff_getElem.1 hx
      exact hsoon i (by omega)
    rwa [List.length_take_of_le (Nat.le_of_lt hk)] at hdue

/-! ## Left alone on the virtual clock -/

def stepMoments (record : List (Timed (Entry I))) : List Instant :=
  record.filterMap fun e => e.what.call?.bind fun call => if call.2.isStep then some e.moment else none

/-- the instants at which steps were taken in the task, oldest first -/
def steps (s : Session I L P) : List Instant := stepMoments s.record

section

omit [Interpreter I] [Loader L I] [Presenter P]

theorem stepMoments_append (r r' : List (Timed (Entry I))) :
    stepMoments (r ++ r') = stepMoments r ++ stepMoments r' := List.filterMap_append

theorem stepMoments_remarks (now : Instant) (notes : List Note) :
    stepMoments (remarks now notes : List (Timed (Entry I))) = [] := by
  rw [remarks, stepMoments, List.map_map, List.filterMap_map]
  exact List.filterMap_eq_nil_iff.2 fun _ _ => rfl

/-- what was written at one instant took the steps that are among its calls -/
theorem stepMoments_journal (now : Instant) (j : List (Entry I)) :
    stepMoments (j.map (Timed.mk now)) = ((Controller.calls j).filter fun call => call.2.isStep).map fun _ => now := by
  rw [stepMoments, List.filterMap_map, Controller.calls, List.filter_filterMap, List.map_filterMap]
  refine List.filterMap_congr ?_
  intro e _
  show (e.call?.bind fun call => if call.2.isStep then some now else none) = _
  cases e.call? with
  | none => rfl
  | some call => cases hstep : call.2.isStep <;> simp [Option.filter, hstep]

end

/-- **A tick that the task takes is one step**, taken at that instant. -/
theorem Step.steps_tick (hstep : Step s [.tick now] es t) (hrooted : Rooted s) : t.steps = s.steps ++ [now] := by
  obtain ⟨now', hacts⟩ : ∃ now', s.acts now' = [.tick now] := by
    rcases hstep.acts_eq with hnone | ⟨now', act, hact, hacts⟩
    · cases hnone
    · exact ⟨now', hacts.trans hact.symm⟩
  obtain ⟨rfl, hready⟩ := acts_tick_ready hacts
  obtain ⟨past, hc⟩ := hrooted (by simpa [isAlive] using (acts_tick hacts).1)
  have hsteady := (hc.poll now).steady.1
  have hrunning : s.controller.phase = .running := hc.steady.1.running_of_ready hready
  obtain ⟨serial, optimize, hooks, answer, hcalls⟩ := Controller.tick_calls now hsteady hrunning
  -- the journal of the tick is in the record, however the step ended
  have hjournal : stepMoments ((s.applying (.tick now)).journal.map (Timed.mk now)) = [now] := by
    rw [stepMoments_journal, applying_tick, hcalls]
    rfl
  have hkinds := hstep.kinds
  generalize hact : [Act.tick now] = as at hkinds
  cases hkinds with
  | rests => cases hact
  | completed hcompleted =>
    cases hact
    obtain ⟨notes, hrecord⟩ := hcompleted.record
    show stepMoments t.record = _
    rw [hrecord, stepMoments_append, stepMoments_append, stepMoments_remarks, List.append_nil]
    exact congrArg (stepMoments s.record ++ ·) hjournal
  | broke hbroke =>
    cases hact
    show stepMoments t.record = _
    rw [hbroke.record, stepMoments_append]
    exact congrArg (stepMoments s.record ++ ·) hjournal

/-- the steps of a run in which the task serves no command -/
theorem Runs.steps_eq (h : Runs s as es t) (hrooted : Rooted s) (hticks : dispatched as = []) :
    t.steps = s.steps ++ as.map fun act => act.asked.1 := by
  induction h with
  | refl => exact (List.append_nil _).symm
  | @snoc as as' es es' t u front last ih =>
    rw [dispatched_append, List.append_eq_nil_iff] at hticks
    obtain ⟨hfront, hlast⟩ := hticks
    have hrooted' : Rooted t := hrooted.leads ⟨_, _, front⟩
    rw [List.map_append, ← List.append_assoc, ← ih hfront]
    rcases last.acts_eq with rfl | ⟨now, act, rfl, -⟩
    · have hkinds := last.kinds
      generalize hact : ([] : List Act) = as' at hkinds
      cases hkinds with
      | rests hrests =>
        obtain ⟨at', notes, hrecord⟩ := hrests.record
        show stepMoments u.record = _
        rw [hrecord, stepMoments_append, stepMoments_remarks]
        rfl
      | completed => cases hact
      | broke => cases hact
    · cases act with
      | dispatch at' command => cases hlast
      | tick at' => exact last.steps_tick hrooted'

variable {n : Nat}

/-- a session that is left alone before its first tick is due awaits it -/
theorem AtEase.awaits (hease : AtEase n s) (hfresh : s.controller.timer.Fresh armed)
    (hnow : now < armed + s.controller.timer.delay.total) :
    Runs s [] [] (s.settle now) ∧ Awaits armed s.controller.timer.delay (s.settle now) := by
  rw [settle_empty hease.inbox hease.waiting]
  by_cases hs : s.status = .alive
  case neg =>
    rw [turns_over hs]
    exact ⟨.refl, fun halive => absurd halive hs⟩
  obtain ⟨schedule, hschedule, rfl, hfirst⟩ := hfresh.interval?_eq
  have hearly : ∀ i, schedule.interval? s.controller.timer.delay = some i → now.whole < i.due := by
    intro i hi
    rw [hfirst i hi]
    exact Nat.lt_of_le_of_lt (Instant.whole_le now) hnow
  have hidle : (s.controller.timer.poll now).1 ≠ .ready := by
    intro hready
    obtain ⟨schedule', i, hschedule', hi, hdue, -⟩ := Timer.ready_cases hready
    obtain rfl : schedule = schedule' := Option.some.inj (hschedule.symm.trans hschedule')
    exact Nat.not_le_of_lt (hearly i hi) hdue
  obtain ⟨hturn, hacts, hkept⟩ := hease.turn_unready hs hidle
  have hstep := (Step.turn s now).runs
  rw [hacts] at hstep
  rw [Session.turns, hturn]
  refine ⟨hstep, ?_⟩
  intro halive _
  cases hi : schedule.interval? s.controller.timer.delay with
  | none =>
    exact absurd (by rw [Timer.poll_overflow hschedule hi]) (hkept halive).1.2
  | some i =>
    rw [(hkept halive).2, Timer.poll_pending hschedule hi (hearly i hi), hfirst i hi]
    exact ⟨_, rfl⟩

/-- a run that is nothing but the beats of a schedule takes one step in the millisecond of each -/
theorem Runs.steps_beats {delay : Delay} {k : Nat} (h : Runs s (beats armed delay k) es t) (hrooted : Rooted s) :
    t.steps = s.steps ++ (List.range k).map fun i => Instant.rounded (armed + (i + 1) * delay.total) := by
  have hticks : dispatched (beats armed delay k) = [] := by
    rw [beats, dispatched, List.filterMap_map]
    exact List.filterMap_eq_nil_iff.2 fun _ _ => rfl
  rw [h.steps_eq hrooted hticks, beats, List.map_map]
  rfl

/-- as many delays lie between two instants as whole ones fit -/
theorem count_le {armed later k d : Nat} (hpositive : 0 < d) (hlast : 0 < k → armed + k * d ≤ later) :
    k ≤ (later - armed) / d := by
  rcases Nat.eq_zero_or_pos k with rfl | hk
  · exact Nat.zero_le _
  · rw [Nat.le_div_iff_mul_le hpositive]
    exact Nat.le_sub_of_add_le (Nat.add_comm .. ▸ hlast hk)

theorem count_eq {armed later k d : Nat} (hpositive : 0 < d) (hlast : 0 < k → armed + k * d ≤ later)
    (hend : later < armed + (k + 1) * d) : k = (later - armed) / d := by
  have hsome : 0 < (k + 1) * d := Nat.mul_pos (Nat.succ_pos k) hpositive
  have hless : (later - armed) / d < k + 1 := by
    rw [Nat.div_lt_iff_lt_mul hpositive]
    omega
  exact Nat.le_antisymm (count_le hpositive hlast) (Nat.le_of_lt_succ hless)

/-- the whole milliseconds until `later` hold the same whole delays as all the time until it -/
theorem count_whole {armed later d : Nat} (harmed : nanosPerMilli ∣ armed) (hdelay : nanosPerMilli ∣ d) :
    (Instant.whole later - armed) / d = (later - armed) / d := by
  obtain ⟨a, rfl⟩ := harmed
  obtain ⟨m, rfl⟩ := hdelay
  have hmilli : 0 < nanosPerMilli := by decide
  calc
    (later / nanosPerMilli * nanosPerMilli - nanosPerMilli * a) / (nanosPerMilli * m)
        = nanosPerMilli * (later / nanosPerMilli - a) / (nanosPerMilli * m) := by
          rw [Nat.mul_comm (later / nanosPerMilli), Nat.mul_sub]
    _ = (later / nanosPerMilli - a) / m := Nat.mul_div_mul_left _ _ hmilli
    _ = (later - nanosPerMilli * a) / nanosPerMilli / m := by rw [Nat.sub_mul_div]
    _ = (later - nanosPerMilli * a) / (nanosPerMilli * m) := Nat.div_div_eq_div_mul ..

/-- from `s` to `t` the session took `k` steps: one in the millisecond in which each delay since `armed` ended, up to `later`,
or as long as it ran -/
structure Paces (armed later : Nat) (delay : Delay) (k : Nat) (s t : Session I L P) : Prop where
  most : k ≤ (Instant.whole later - armed) / delay.total
  steps : t.steps = s.steps ++ (List.range k).map fun i => Instant.rounded (armed + (i + 1) * delay.total)
  all : t.status = .alive → t.controller.phase = .running → k = (Instant.whole later - armed) / delay.total
  /-- where the arming and the delay are whole milliseconds, the steps come right at the end of each delay -/
  prompt : nanosPerMilli ∣ armed → nanosPerMilli ∣ delay.total →
    t.steps = s.steps ++ (List.range k).map (fun i => armed + (i + 1) * delay.total) ∧
      (t.status = .alive → t.controller.phase = .running → k = (later - armed) / delay.total)

/-- **A session that is left alone keeps time.** -/
theorem AtEase.paces (hease : AtEase n s) (hrooted : Rooted s) (hfresh : s.controller.timer.Fresh armed)
    (hnow : now < armed + s.controller.timer.delay.total) (later : Instant) :
    ∃ k, Paces armed later s.controller.timer.delay k s (s.sleep now (later + 1)) := by
  obtain ⟨hfirst, hawaits⟩ := hease.awaits hfresh hnow
  have hrooted' := hrooted.leads (leads_settle now s)
  obtain ⟨k, hruns, hlast, hend⟩ :=
    hawaits.sleep_beats (hease.settle now) hrooted' (hease.settle_settle hrooted now) (later + 1)
  rw [hease.sleep_settle hrooted] at hruns hend
  generalize s.controller.timer.delay = delay at hruns hlast hend ⊢
  have hall : Runs s (beats armed delay k) [] (s.sleep now (later + 1)) := by simpa using hfirst.trans hruns
  have hsteps := hall.steps_beats hrooted
  have hbefore : 0 < k → armed + k * delay.total ≤ later.whole := by
    intro hpos
    exact Instant.rounded_le_iff.1 (Nat.le_of_lt_succ (hlast hpos))
  have hcount : (s.sleep now (later + 1)).status = .alive → (s.sleep now (later + 1)).controller.phase = .running →
      k = (later.whole - armed) / delay.total := by
    intro halive hrunning
    exact count_eq delay.positive hbefore (Instant.lt_rounded_iff.1 (hend halive hrunning))
  refine ⟨k, count_le delay.positive hbefore, hsteps, hcount, ?_⟩
  intro harmed hdelay
  refine ⟨?_, fun halive hrunning => (hcount halive hrunning).trans (count_whole harmed hdelay)⟩
  rw [hsteps]
  refine congrArg (s.steps ++ ·) (List.map_congr_left ?_)
  intro i _
  exact Instant.rounded_of_dvd (Nat.dvd_add harmed (Nat.dvd_mul_left_of_dvd hdelay _))

end Session

end StepControl

/-
How a session settles.

(1) Ticks that are due. A timer that gives a tick is set for the next one, and has one less to give at that instant
(`Timer.Even.backlog_lt`); this is what makes the turns of a task at one instant come to an end. It rests on the period of
the interval being the delay of the timer (`Controller.Reached.even`). `Timer.ready_cases`, `Timer.poll_pending`,
`Timer.poll_overflow` and `Timer.poll_ends` say how a timer answers.

(2) Turns. The task serves what is in its inbox before it takes a tick, so it drains the inbox first (`Session.turns_drain`,
`Session.work_drain`), and then takes the ticks that are due. What senders in line have to say comes in as far as there is
room; where all of it finds room it is drained in one go (`Session.settle_room`).

(3) Rest. A session that settled is at ease (`Session.AtEase`): nothing is on its way to the task, and if the task is alive
it has no tick to take.
- `Session.Tidy.settle`: settling leads there.
- `Session.AtEase.turn_ready`, `Session.AtEase.turn_unready`: what a task at ease does in a turn depends on its timer alone.
  It takes the tick that is due, or it parks, or it breaks down over a due time that cannot be named.
- `Session.AtEase.turns_park`: the turns suffice, so that a task that settled has no tick left.
- `Session.AtEase.settle_settle`: settling twice is settling once.
- `Session.AtEase.runInstants`, `Session.AtEase.waitFor`, `Session.AtEase.shutdown`: sessions at ease stay so, whatever
  their client does.

Premises: the controller of the task was reached as long as the task is alive (`Session.Rooted`), and the inbox has room for
one command. The interpreter may break down.
-/
import StepControl.Proofs.Deadlines
import StepControl.Proofs.Turns

namespace StepControl

open StepControl.Action

variable {I L P : Type} [Interpreter I] [Loader L I] [Presenter P] {now : Instant}

/-! ## Ticks that are due -/

namespace Timer

variable {t : Timer}

/-- the due times lie as far apart as the delay says -/
def Even (t : Timer) : Prop := ∀ s, t.schedule = some s → ∀ i, s.interval = some i → i.period = t.delay

theorem even_of_off (h : t.isActive = false) : Even t := by
  intro s hs
  simp [isActive, hs] at h

theorem even_of_armed {armed : Instant} (h : t.schedule = some { armedAt := armed }) : Even t := by
  intro s hs i hi
  obtain rfl : ({ armedAt := armed } : Schedule) = s := Option.some.inj (h.symm.trans hs)
  cases hi

theorem Even.interval? (h : Even t) {s : Schedule} (hs : t.schedule = some s) {i : Interval}
    (hi : s.interval? t.delay = some i) : i.period = t.delay := by
  rcases Schedule.interval?_cases hi with hlaid | ⟨-, rfl⟩
  · exact h s hs i hlaid
  · rfl

theorem Even.poll (h : Even t) (now : Instant) : Even (t.poll now).2 := by
  have hanswered := t.poll_answered now
  generalize t.poll now = p at hanswered ⊢
  cases hanswered with
  | pending armed laid early =>
    intro s hs i hi
    cases hs
    cases hi
    exact h.interval? armed laid
  | ready armed laid due goes =>
    have hperiod := h.interval? armed laid
    intro s hs i hi
    cases hs
    cases hi
    exact hperiod
  | _ => exact h

theorem backlog_off (h : t.isActive = false) (now : Instant) : t.backlog now = 0 := by
  have hnone : t.schedule = none := by simpa [isActive] using h
  simp [backlog, due?, hnone]

theorem poll_overflow {s : Schedule} (hs : t.schedule = some s) (hi : s.interval? t.delay = none) :
    t.poll now = (.overflow, t) := by
  simp [poll, hs, hi]

theorem poll_ready {s : Schedule} {i : Interval} (hs : t.schedule = some s) (hi : s.interval? t.delay = some i)
    (hdue : i.due ≤ now.whole) (hgoes : ¬ i.Ends now) :
    t.poll now = (.ready, { t with schedule := some { s with interval := some (i.take now) } }) := by
  simp [Timer.poll, hs, hi, hdue, hgoes]

theorem poll_pending {s : Schedule} {i : Interval} (hs : t.schedule = some s) (hi : s.interval? t.delay = some i)
    (hearly : now.whole < i.due) :
    t.poll now = (.pending i.due.rounded, { t with schedule := some { s with interval := some i } }) := by
  simp [Timer.poll, hs, hi, Nat.not_le_of_lt hearly]

theorem poll_ends {s : Schedule} {i : Interval} (hs : t.schedule = some s) (hi : s.interval? t.delay = some i)
    (hdue : i.due ≤ now.whole) (hends : i.Ends now) : t.poll now = (.overflow, t) := by
  simp [Timer.poll, hs, hi, hdue, hends]

/-- a timer that gives a tick has an interval whose due time has come -/
theorem ready_cases (h : (t.poll now).1 = .ready) :
    ∃ s i, t.schedule = some s ∧ s.interval? t.delay = some i ∧ i.due ≤ now.whole ∧
      t.poll now = (.ready, { t with schedule := some { s with interval := some (i.take now) } }) := by
  have hanswered := t.poll_answered now
  generalize t.poll now = p at hanswered h ⊢
  cases hanswered with
  | ready armed laid due goes => exact ⟨_, _, armed, laid, due, rfl⟩
  | _ => cases h

/-- the tick that was taken is not among those that the interval can still give -/
theorem ticks_lt {due now tolerance period : Nat} (hpositive : 0 < period) (hsoon : now ≤ due + tolerance)
    (hlater : due + period ≤ now) :
    min (now - (due + period)) tolerance / period < min (now - due) tolerance / period := by
  have hold : min (now - due) tolerance = now - due := Nat.min_eq_left (by omega)
  have hnew : min (now - (due + period)) tolerance = now - due - period := by
    rw [Nat.min_eq_left (by omega)]
    omega
  rw [hold, hnew, Nat.div_eq_sub_div hpositive (by omega : period ≤ now - due)]
  exact Nat.lt_succ_self _

theorem take_due {i : Interval} (hlater : (i.take now).due ≤ now) (hpositive : 0 < i.period.total) :
    now ≤ i.due + Interval.tolerance ∧ (i.take now).due = i.due + i.period.total := by
  unfold Interval.take at hlater ⊢
  dsimp only at hlater ⊢
  split at hlater
  case isTrue hsoon => exact ⟨hsoon, if_pos hsoon⟩
  case isFalse => exact absurd hlater (Nat.not_le_of_lt (Nat.lt_add_of_pos_right hpositive))

/-- **A tick that is taken is one less to take.** -/
theorem Even.backlog_lt (h : Even t) (hready : (t.poll now).1 = .ready) :
    (t.poll now).2.backlog now < t.backlog now := by
  obtain ⟨s, i, hs, hi, hdue, hpoll⟩ := ready_cases hready
  have hperiod : i.period.total = t.delay.total := congrArg Delay.total (h.interval? hs hi)
  have hbefore : t.backlog now = min (now - i.due) Interval.tolerance / t.delay.total + 1 := by
    simp [backlog, due?, hs, hi, hdue]
  have hafter : (t.poll now).2.backlog now = if (i.take now).due ≤ now.whole then
      min (now - (i.take now).due) Interval.tolerance / t.delay.total + 1 else 0 := by
    rw [hpoll]
    simp [backlog, due?, Schedule.interval?]
  rw [hbefore, hafter]
  split
  case isTrue hlater =>
    have hlater' : (i.take now).due ≤ now := Nat.le_trans hlater (Instant.whole_le now)
    obtain ⟨hsoon, hnext⟩ := take_due hlater' i.period.positive
    rw [hnext] at hlater' ⊢
    rw [← hperiod]
    exact Nat.add_lt_add_right (ticks_lt i.period.positive hsoon hlater') 1
  case isFalse => exact Nat.succ_pos _

/-- a timer that is asked in vain stays as it is, once its interval is laid down -/
theorem poll_still {s : Schedule} {i : Interval} (hs : t.schedule = some s) (hi : s.interval = some i)
    (h : (t.poll now).1 ≠ .ready) : (t.poll now).2 = t := by
  obtain ⟨delay, schedule⟩ := t
  obtain ⟨armedAt, interval⟩ := s
  dsimp only at hs hi
  subst hs hi
  have hanswered := poll_answered now ⟨delay, some ⟨armedAt, some i⟩⟩
  generalize poll now ⟨delay, some ⟨armedAt, some i⟩⟩ = p at hanswered h ⊢
  cases hanswered with
  | ready => exact absurd rfl h
  | pending armed laid early =>
    cases armed
    cases laid
    rfl
  | _ => rfl

/-- a timer that has no tick to give answers the same when it is asked again -/
theorem poll_poll (h : (t.poll now).1 ≠ .ready) : (t.poll now).2.poll now = t.poll now := by
  have hanswered := t.poll_answered now
  generalize hp : t.poll now = p at hanswered h ⊢
  cases hanswered with
  | off => exact hp
  | unlaid => exact hp
  | ends => exact hp
  | @pending s i armed laid early => exact poll_pending (s := { s with interval := some i }) rfl rfl early
  | ready => exact absurd rfl h

end Timer

namespace Controller

variable {c d : Controller I L P} {past : List Applied}

/-- the timer has no tick to give at `now`, and its next due time can be named -/
def Calm (now : Instant) (c : Controller I L P) : Prop :=
  (c.timer.poll now).1 ≠ .ready ∧ (c.timer.poll now).1 ≠ .overflow

instance (now : Instant) (c : Controller I L P) : Decidable (c.Calm now) := inferInstanceAs (Decidable (_ ∧ _))

omit [Interpreter I] [Loader L I] [Presenter P] in
theorem Calm.lt_due (h : c.Calm now) {due : Instant} (hdue : c.timer.due? = some due) : now.whole < due := by
  obtain ⟨s, hs, hlaid⟩ := Option.bind_eq_some_iff.1 hdue
  obtain ⟨i, hi, rfl⟩ := Option.map_eq_some_iff.1 hlaid
  refine Nat.lt_of_not_le ?_
  intro hle
  by_cases hends : i.Ends now
  · exact h.2 (by rw [Timer.poll_ends hs hi hle hends])
  · exact h.1 (by rw [Timer.poll_ready hs hi hle hends])

omit [Interpreter I] [Loader L I] [Presenter P] in
/-- a timer that has no tick to give has none before the next due time -/
theorem Calm.until (h : c.Calm now) {later : Instant} (hdue : ∀ due, c.timer.due? = some due → later.whole < due) :
    c.Calm later := by
  cases hs : c.timer.schedule with
  | none => simp [Calm, Timer.poll, hs]
  | some s =>
    cases hi : s.interval? c.timer.delay with
    | none => exact absurd (by simp [Timer.poll, hs, hi]) h.2
    | some i =>
      have hlater : later.whole < i.due := hdue i.due (by simp [Timer.due?, hs, hi])
      rw [Calm, Timer.poll_pending hs hi hlater]
      exact ⟨by simp, by simp⟩

omit [Interpreter I] [Loader L I] [Presenter P] in
/-- an operation leaves the timer as it is, or arms it, or switches it off -/
theorem TimerTold.even {e : Applied} (h : TimerTold c d e) (hd : Steady d) (hc : c.timer.Even) : d.timer.Even := by
  by_cases hp : d.phase = .running
  case neg => exact Timer.even_of_off (by simpa using mt hd.timer.1 hp)
  cases harms : e.arms with
  | true => exact Timer.even_of_armed (h.armed harms).2
  | false => exact (h.kept harms hp).2 ▸ hc

/-- **The due times of a reached controller lie as far apart as its delay says.** -/
theorem Reached.even (h : Reached past c) : c.timer.Even := by
  induction h with
  | new config loader presenter => exact Timer.even_of_off rfl
  | perform front now op returned ih =>
    have hsteady := (front.perform now op returned).steady.1
    exact (perform_timerTold front.steady.1 op _ returned).even hsteady ih
  | poll front now ih => exact ih.poll now

/-- a tick that is taken off the timer, and then applied, leaves fewer to take -/
theorem Reached.backlog_lt (h : Reached past c) (hready : (c.timer.poll now).1 = .ready) {outcome : Option Outcome}
    (hvalue : (tick now { c with timer := (c.timer.poll now).2 }).value = some outcome) :
    (tick now { c with timer := (c.timer.poll now).2 }).state.timer.backlog now < c.timer.backlog now := by
  obtain ⟨hnext, htold⟩ := (h.poll now).tick_told hvalue
  by_cases hp : (tick now { c with timer := (c.timer.poll now).2 }).state.phase = .running
  · rw [(htold.kept rfl hp).2]
    exact h.even.backlog_lt hready
  · have hoff : (tick now { c with timer := (c.timer.poll now).2 }).state.timer.isActive = false := by
      simpa using mt hnext.steady.1.timer.1 hp
    rw [Timer.backlog_off hoff]
    exact Nat.zero_lt_of_lt (h.even.backlog_lt hready)

end Controller

namespace Session

variable {s t : Session I L P} {command : Command} {commands : List Command}

/-! ## Turns -/

theorem turn_over (hs : s.status ≠ .alive) (now : Instant) : s.turn now = (false, s) := if_pos hs

theorem turn_cancelled (hs : s.status = .alive) (hc : s.cancelled = true) (now : Instant) :
    s.turn now = (false, s.finish now) := by
  rw [turn, if_neg (not_not.2 hs), if_pos hc]

theorem turn_serve {command : Command} {rest : List Command} (hs : s.status = .alive) (hc : s.cancelled = false)
    (hi : s.inbox = command :: rest) (now : Instant) :
    s.turn now = (true, { s with inbox := rest }.serve now command) := by
  rw [turn, if_neg (not_not.2 hs), if_neg (by simp [hc]), hi]

theorem turn_letGo (hs : s.status = .alive) (hc : s.cancelled = false) (hi : s.inbox = []) (ha : s.abandoned = true)
    (now : Instant) : s.turn now = (false, s.finish now) := by
  rw [turn, if_neg (not_not.2 hs), if_neg (by simp [hc]), hi]
  exact if_pos ha

theorem turn_poll (hs : s.status = .alive) (hc : s.cancelled = false) (hi : s.inbox = []) (ha : s.abandoned = false)
    (now : Instant) :
    s.turn now =
      match s.controller.timer.poll now with
      | (.ready, timer) => (true, s.serveTick now timer)
      | (.overflow, _) => (false, s.close .crashed)
      | (_, timer) => (false, { s with controller := { s.controller with timer } }) := by
  rw [turn, if_neg (not_not.2 hs), if_neg (by simp [hc]), hi]
  exact if_neg (by simp [ha])

theorem turn_calm (hs : s.status = .alive) (hc : s.cancelled = false) (hi : s.inbox = []) (ha : s.abandoned = false)
    (hcalm : s.controller.Calm now) :
    s.turn now = (false, { s with controller := { s.controller with timer := (s.controller.timer.poll now).2 } }) := by
  rw [turn_poll hs hc hi ha]
  obtain ⟨hready, hoverflow⟩ := hcalm
  generalize s.controller.timer.poll now = p at hready hoverflow ⊢
  obtain ⟨answer, timer⟩ := p
  cases answer with
  | ready => exact absurd rfl hready
  | overflow => exact absurd rfl hoverflow
  | off => rfl
  | pending due => rfl

/-- a task that is over takes no turns -/
theorem turns_over (hs : s.status ≠ .alive) (now : Instant) (fuel : Nat) : s.turns now fuel = s := by
  cases fuel with
  | zero => rfl
  | succ fuel => rw [Session.turns, turn_over hs]

def emptied (s : Session I L P) : Session I L P := { s with inbox := [], waiting := [] }

omit [Interpreter I] [Loader L I] [Presenter P] in
theorem emptied_eq (hi : s.inbox = []) (hw : s.waiting = []) : s.emptied = s := by
  cases s
  obtain rfl := hi
  obtain rfl := hw
  rfl

omit [Interpreter I] [Loader L I] [Presenter P] in
theorem fillInbox_eq (hi : s.inbox = []) (hw : s.waiting = []) : s.fillInbox = s := by
  have hsame := emptied_eq hi hw
  rw [← hsame]
  simp [fillInbox, emptied]

/-- all that is left to do when nothing is on its way to the task is to take the ticks that are due -/
theorem settle_empty (hi : s.inbox = []) (hw : s.waiting = []) (now : Instant) :
    s.settle now = s.turns now (s.controller.timer.backlog now + 1) := by
  have hwork : s.work now = s.turns now (s.controller.timer.backlog now + 1) := by
    rw [work, hi, List.length_nil, Nat.zero_add]
  rw [settle, rounds, fillInbox_eq hi hw, hwork, hw]
  split <;> rfl

theorem rounds_over (hs : s.status ≠ .alive) (hi : s.inbox = []) (hw : s.waiting = []) (now : Instant) (fuel : Nat) :
    s.rounds now fuel = s := by
  cases fuel with
  | zero => rfl
  | succ fuel =>
    rw [rounds, fillInbox_eq hi hw, work, turns_over hs]
    exact if_pos hw

/-- a task that is over stays so, and sends no replies -/
theorem Step.over {as : List Act} {es : List Command} (h : Step s as es t) (hs : s.status ≠ .alive) :
    t.status ≠ .alive ∧ t.replies = s.replies := by
  cases h with
  | turn now =>
    rw [turn_over hs]
    exact ⟨hs, rfl⟩
  | _ => exact ⟨hs, rfl⟩

theorem Runs.over {as : List Act} {es : List Command} (h : Runs s as es t) (hs : s.status ≠ .alive) :
    t.status ≠ .alive ∧ t.replies = s.replies := by
  induction h with
  | refl => exact ⟨hs, rfl⟩
  | snoc _ last ih =>
    obtain ⟨hover, hreplies⟩ := ih
    obtain ⟨hlast, hsame⟩ := last.over hover
    exact ⟨hlast, hsame.trans hreplies⟩

/-! ## The inbox is served in one go -/

/-- serve commands one after the other as long as the task is alive -/
def drain (now : Instant) : List Command → Session I L P → Session I L P
  | [], s => s
  | command :: rest, s => if s.status = .alive then drain now rest (s.serve now command) else s

theorem drain_over (hs : s.status ≠ .alive) (commands : List Command) : s.drain now commands = s := by
  cases commands with
  | nil => rfl
  | cons command rest => exact if_neg hs

theorem drain_cons (hs : s.status = .alive) (command : Command) (rest : List Command) :
    s.drain now (command :: rest) = (s.serve now command).drain now rest := if_pos hs

theorem drain_append (commands more : List Command) (s : Session I L P) :
    s.drain now (commands ++ more) = (s.drain now commands).drain now more := by
  induction commands generalizing s with
  | nil => rfl
  | cons command rest ih =>
    by_cases hs : s.status = .alive
    · rw [List.cons_append, drain_cons hs, drain_cons hs, ih]
    · rw [drain_over hs, drain_over hs, drain_over hs]

/-- what serving a command leaves: the controller is the one that was asked, and the task is over if it broke down -/
theorem serve_cases (now : Instant) (command : Command) (s : Session I L P) :
    (s.serve now command).controller = (Controller.dispatch now command.intent s.controller).state ∧
      (((Controller.dispatch now command.intent s.controller).value = none ∧ (s.serve now command).status = .crashed) ∨
        ∃ result, (Controller.dispatch now command.intent s.controller).value = some result ∧
          (s.serve now command).status = s.status) := by
  cases hvalue : (Controller.dispatch now command.intent s.controller).value with
  | none =>
    rw [serve_none hvalue]
    exact ⟨rfl, Or.inl ⟨rfl, rfl⟩⟩
  | some result =>
    rw [serve_some hvalue]
    exact ⟨rfl, Or.inr ⟨result, rfl, rfl⟩⟩

/-- what else is on its way does not matter to the command that is served, unless the controller breaks down over it -/
theorem serve_queued (hs : s.status = .alive) (now : Instant) (command : Command) (inbox waiting : List Command) :
    ({ s with inbox, waiting } : Session I L P).serve now command =
      if (s.serve now command).status = .alive then { s.serve now command with inbox, waiting }
      else (s.serve now command).emptied := by
  cases hvalue : (Controller.dispatch now command.intent s.controller).value with
  | none =>
    rw [serve_none hvalue, serve_none (s := { s with inbox, waiting }) hvalue]
    rfl
  | some result =>
    rw [serve_some hvalue, serve_some (s := { s with inbox, waiting }) hvalue, if_pos (by exact hs)]

theorem drain_queued (hs : s.status = .alive) (now : Instant) (commands inbox waiting : List Command) :
    ({ s with inbox, waiting } : Session I L P).drain now commands =
      if (s.drain now commands).status = .alive then { s.drain now commands with inbox, waiting }
      else (s.drain now commands).emptied := by
  induction commands generalizing s with
  | nil => exact (if_pos hs).symm
  | cons command rest ih =>
    rw [drain_cons hs, drain_cons (s := { s with inbox, waiting }) hs, serve_queued hs now]
    by_cases halive : (s.serve now command).status = .alive
    · rw [if_pos halive, ih halive]
    · rw [if_neg halive, drain_over halive, if_neg halive, drain_over (by exact halive)]

/-- nothing comes in while the task drains commands -/
theorem drain_emptied (now : Instant) (commands : List Command) (s : Session I L P) :
    (s.emptied.drain now commands).emptied = s.emptied.drain now commands := by
  by_cases hs : s.status = .alive
  · have hqueued : s.emptied.drain now commands = _ := drain_queued (s := s.emptied) hs now commands [] []
    split at hqueued
    · exact hqueued.symm
    · exact hqueued.symm
  · rw [drain_over (s := s.emptied) hs]
    rfl

theorem drain_flags (now : Instant) (commands : List Command) (s : Session I L P) :
    (s.drain now commands).cancelled = s.cancelled ∧ (s.drain now commands).abandoned = s.abandoned ∧
      (s.drain now commands).capacity = s.capacity := by
  induction commands generalizing s with
  | nil => exact ⟨rfl, rfl, rfl⟩
  | cons command rest ih =>
    by_cases hs : s.status = .alive
    case neg =>
      rw [drain_over hs]
      exact ⟨rfl, rfl, rfl⟩
    rw [drain_cons hs]
    obtain ⟨hcancelled, habandoned, hcapacity⟩ := ih (s.serve now command)
    cases hvalue : (Controller.dispatch now command.intent s.controller).value with
    | none =>
      rw [hcancelled, habandoned, hcapacity, serve_none hvalue]
      exact ⟨rfl, rfl, rfl⟩
    | some result =>
      rw [hcancelled, habandoned, hcapacity, serve_some hvalue]
      exact ⟨rfl, rfl, rfl⟩

/-- **The task drains its inbox before it takes a tick.** -/
theorem turns_drain (hs : s.status = .alive) (hc : s.cancelled = false) (now : Instant) (fuel : Nat) :
    s.turns now (s.inbox.length + fuel) = ({ s with inbox := [] }.drain now s.inbox).turns now fuel := by
  generalize hi : s.inbox = inbox
  induction inbox generalizing s with
  | nil =>
    have hsame : { s with inbox := [] } = s := by rw [← hi]
    rw [hsame]
    simp [drain]
  | cons command rest ih =>
    -- the first command is served with the rest behind it, or alone
    have hfuel : (command :: rest).length + fuel = (rest.length + fuel) + 1 := by simp; omega
    rw [hfuel, turns, turn_serve hs hc hi]
    dsimp only
    rw [drain_cons (s := { s with inbox := [] }) hs]
    have hserved := serve_queued (s := { s with inbox := [] }) hs now command rest s.waiting
    have halone := serve_queued (s := { s with inbox := [] }) hs now command [] s.waiting
    have hcancelled := (drain_flags now [command] { s with inbox := [] }).1
    rw [drain_cons (s := { s with inbox := [] }) hs] at hcancelled
    generalize ({ s with inbox := [] } : Session I L P).serve now command = t at hserved halone hcancelled ⊢
    dsimp only at hserved halone
    rw [hserved]
    by_cases ht : t.status = .alive
    · rw [if_pos ht] at halone ⊢
      have hrest := ih (s := { t with inbox := rest, waiting := s.waiting }) ht (hcancelled.trans hc) rfl
      dsimp only at hrest
      rw [hrest, ← halone]
    · rw [if_neg ht] at halone ⊢
      rw [drain_over ht, turns_over ht, turns_over (by exact ht)]
      exact halone.symm

/-- a task that works drains its inbox, and then takes the ticks that are due -/
theorem work_drain (hs : s.status = .alive) (hc : s.cancelled = false) (now : Instant) :
    s.work now = ({ s with inbox := [] }.drain now s.inbox).turns now (s.controller.timer.backlog now + 1) := by
  rw [work, Nat.add_assoc, turns_drain hs hc]

theorem turns_waiting (now : Instant) (fuel : Nat) (s : Session I L P) :
    (s.turns now fuel).waiting = s.waiting ∨ (s.turns now fuel).waiting = [] := by
  induction fuel generalizing s with
  | zero => exact Or.inl rfl
  | succ fuel ih =>
    have hturn := (turn_turned now s).untouched.waiting.imp_right And.right
    unfold turns
    generalize s.turn now = p at hturn ⊢
    obtain ⟨more, t⟩ := p
    cases more with
    | false => exact hturn
    | true =>
      rcases ih t with hsame | hnone
      · exact hturn.imp hsame.trans hsame.trans
      · exact Or.inr hnone

/-- commands that all find room are served in one go -/
theorem settle_room (hs : s.status = .alive) (hc : s.cancelled = false) (hi : s.inbox = [])
    (hroom : s.waiting.length ≤ s.capacity) (now : Instant) :
    s.settle now = (s.emptied.drain now s.waiting).turns now (s.controller.timer.backlog now + 1) := by
  have hfill : s.fillInbox = { s with inbox := s.waiting, waiting := [] } := by
    simp [fillInbox, hi, List.take_of_length_le hroom, List.drop_eq_nil_of_le hroom]
  have hwork : s.fillInbox.work now = (s.emptied.drain now s.waiting).turns now (s.controller.timer.backlog now + 1) := by
    rw [hfill]
    exact work_drain (s := { s with inbox := s.waiting, waiting := [] }) hs hc now
  have hnone : (s.emptied.drain now s.waiting).waiting = [] := by
    rw [← drain_emptied]
    rfl
  rw [settle, rounds, hwork]
  refine if_pos ?_
  rcases turns_waiting now (s.controller.timer.backlog now + 1) (s.emptied.drain now s.waiting) with hsame | hgone
  · exact hsame.trans hnone
  · exact hgone

/-! ## Sessions at ease -/

/-- a task that is over has nothing on its way to it, one that is alive goes on, and the inbox has room; `n` tickets were
given out -/
structure Tidy (n : Nat) (s : Session I L P) : Prop where
  gone : s.status ≠ .alive → s.inbox = [] ∧ s.waiting = []
  going : s.status = .alive → s.cancelled = false ∧ s.abandoned = false
  room : 0 < s.capacity
  tickets : s.tickets = n

variable {n : Nat}

/-- a tidy session with nothing on its way to the task -/
structure AtEase (n : Nat) (s : Session I L P) : Prop extends Tidy n s where
  inbox : s.inbox = []
  waiting : s.waiting = []

omit [Interpreter I] [Loader L I] [Presenter P] in
theorem tidy_over (hover : s.status ≠ .alive) (hi : s.inbox = []) (hw : s.waiting = []) (hroom : 0 < s.capacity)
    (hn : s.tickets = n) : Tidy n s where
  gone _ := ⟨hi, hw⟩
  going hs := absurd hs hover
  room := hroom
  tickets := hn

omit [Interpreter I] [Loader L I] [Presenter P] in
theorem tidy_alive (hs : s.status = .alive) (hflags : s.cancelled = false ∧ s.abandoned = false)
    (hroom : 0 < s.capacity) (hn : s.tickets = n) : Tidy n s where
  gone hover := absurd hs hover
  going _ := hflags
  room := hroom
  tickets := hn

theorem Turned.tidy {as : List Act} (hturned : Turned now s as t) (h : Tidy n s) :
    Tidy n t ∧ (s.inbox = [] → t.inbox = []) := by
  cases hturned with
  | idle status => exact ⟨h, id⟩
  | finish status reason => exact ⟨tidy_over (by simp [Session.finish, close]) rfl rfl h.room h.tickets, fun _ => rfl⟩
  | @serve command rest status going inbox =>
    refine ⟨?_, fun hnone => by simp [inbox] at hnone⟩
    cases hvalue : (Controller.dispatch now command.intent s.controller).value with
    | none =>
      rw [serve_none (s := { s with inbox := rest }) hvalue]
      exact tidy_over (by simp) rfl rfl h.room h.tickets
    | some result =>
      rw [serve_some (s := { s with inbox := rest }) hvalue]
      exact tidy_alive status (h.going status) h.room h.tickets
  | @tick timer status going inbox held poll =>
    cases hvalue : (Controller.tick now { s.controller with timer }).value with
    | none =>
      rw [serveTick_none hvalue]
      exact ⟨tidy_over (by simp) rfl rfl h.room h.tickets, fun _ => rfl⟩
    | some outcome =>
      rw [serveTick_some hvalue]
      exact ⟨tidy_alive status (h.going status) h.room h.tickets, id⟩
  | overflow status going inbox held poll => exact ⟨tidy_over (by simp [close]) rfl rfl h.room h.tickets, fun _ => rfl⟩
  | park status going inbox held => exact ⟨tidy_alive status (h.going status) h.room h.tickets, id⟩

theorem Tidy.turns (h : Tidy n s) (now : Instant) (fuel : Nat) :
    Tidy n (s.turns now fuel) ∧ (s.inbox = [] → (s.turns now fuel).inbox = []) := by
  induction fuel generalizing s with
  | zero => exact ⟨h, id⟩
  | succ fuel ih =>
    obtain ⟨htidy, hinbox⟩ := (turn_turned now s).tidy h
    unfold Session.turns
    generalize s.turn now = p at htidy hinbox ⊢
    obtain ⟨more, t⟩ := p
    cases more with
    | false => exact ⟨htidy, hinbox⟩
    | true => exact ⟨(ih htidy).1, fun hnone => (ih htidy).2 (hinbox hnone)⟩

/-- after its turns the task has an empty inbox -/
theorem Tidy.work (h : Tidy n s) (now : Instant) :
    Tidy n (s.work now) ∧ (s.work now).inbox = [] ∧ ((s.work now).waiting = s.waiting ∨ (s.work now).waiting = []) := by
  refine ⟨(h.turns now _).1, ?_, turns_waiting now _ s⟩
  by_cases hs : s.status = .alive
  case neg =>
    rw [Session.work, turns_over hs]
    exact (h.gone hs).1
  have hdrained : s.turns now s.inbox.length = ({ s with inbox := [] } : Session I L P).drain now s.inbox :=
    turns_drain hs (h.going hs).1 now 0
  have htidy := (h.turns now s.inbox.length).1
  have hqueued : ({ s with inbox := [] } : Session I L P).drain now s.inbox = _ :=
    drain_queued (s := { s with inbox := [] }) hs now s.inbox [] s.waiting
  rw [hdrained] at htidy
  rw [work_drain hs (h.going hs).1]
  refine (htidy.turns now _).2 ?_
  rw [hqueued]
  split <;> rfl

/-- **A session that settled is at ease.** -/
theorem Tidy.rounds (h : Tidy n s) (hi : s.inbox = []) (now : Instant) {fuel : Nat} (hfuel : s.waiting.length ≤ fuel) :
    AtEase n (s.rounds now fuel) := by
  induction fuel generalizing s with
  | zero => exact ⟨h, hi, List.eq_nil_of_length_eq_zero (Nat.le_zero.1 hfuel)⟩
  | succ fuel ih =>
    have hfill : s.fillInbox = { s with inbox := s.waiting.take s.capacity, waiting := s.waiting.drop s.capacity } := by
      simp [Session.fillInbox, hi]
    have htidy : Tidy n s.fillInbox := by
      rw [hfill]
      exact ⟨fun hover => by simp [(h.gone hover).2], h.going, h.room, h.tickets⟩
    obtain ⟨hnext, hinbox, hwaiting⟩ := htidy.work now
    unfold Session.rounds
    dsimp only
    split
    case isTrue hnone => exact ⟨hnext, hinbox, hnone⟩
    case isFalse hsome =>
      refine ih hnext hinbox ?_
      have hsame : (s.fillInbox.work now).waiting = s.waiting.drop s.capacity := by
        rw [hwaiting.resolve_right hsome, hfill]
      have hroom := h.room
      have hpositive := List.length_pos_of_ne_nil hsome
      rw [hsame, List.length_drop] at hpositive ⊢
      omega

/-- the same where the inbox was full: the first round drains it, and lets nobody in -/
theorem Tidy.settle (h : Tidy n s) (now : Instant) : AtEase n (s.settle now) := by
  have hfill : Tidy n s.fillInbox := by
    refine ⟨?_, h.going, h.room, h.tickets⟩
    intro hover
    obtain ⟨hi, hw⟩ := h.gone hover
    rw [fillInbox_eq hi hw]
    exact ⟨hi, hw⟩
  obtain ⟨hnext, hinbox, hwaiting⟩ := hfill.work now
  unfold Session.settle Session.rounds
  dsimp only
  split
  case isTrue hnone => exact ⟨hnext, hinbox, hnone⟩
  case isFalse hsome =>
    refine hnext.rounds hinbox now ?_
    rw [hwaiting.resolve_right hsome, Session.fillInbox, List.length_drop]
    exact Nat.sub_le _ _

theorem AtEase.settle (h : AtEase n s) (now : Instant) : AtEase n (s.settle now) := h.toTidy.settle now

/-- a task that has nothing to serve takes the tick that its timer gives -/
theorem AtEase.turn_ready (h : AtEase n s) (hs : s.status = .alive) (hready : (s.controller.timer.poll now).1 = .ready) :
    s.turn now = (true, s.serveTick now (s.controller.timer.poll now).2) ∧ s.acts now = [.tick now] := by
  obtain ⟨hc, ha⟩ := h.going hs
  refine ⟨?_, by simp [acts, hs, hc, h.inbox, ha, hready]⟩
  rw [turn_poll hs hc h.inbox ha]
  generalize s.controller.timer.poll now = p at hready ⊢
  obtain ⟨answer, timer⟩ := p
  obtain rfl : answer = .ready := hready
  rfl

/-- where its timer gives none it parks, or breaks down -/
theorem AtEase.turn_unready (h : AtEase n s) (hs : s.status = .alive) (hidle : (s.controller.timer.poll now).1 ≠ .ready) :
    s.turn now = (false, (s.turn now).2) ∧ s.acts now = [] ∧
      ((s.turn now).2.status = .alive → s.controller.Calm now ∧
        (s.turn now).2.controller = { s.controller with timer := (s.controller.timer.poll now).2 }) := by
  obtain ⟨hc, ha⟩ := h.going hs
  have hacts : s.acts now = [] := by simp [acts, hs, hc, h.inbox, hidle]
  have hpoll := turn_poll hs hc h.inbox ha now
  rw [hpoll, Controller.Calm]
  generalize s.controller.timer.poll now = p at hidle ⊢
  obtain ⟨answer, timer⟩ := p
  cases answer with
  | ready => exact absurd rfl hidle
  | overflow => exact ⟨rfl, hacts, fun halive => by cases halive⟩
  | off => exact ⟨rfl, hacts, fun _ => ⟨⟨hidle, nofun⟩, rfl⟩⟩
  | pending due => exact ⟨rfl, hacts, fun _ => ⟨⟨hidle, nofun⟩, rfl⟩⟩

/-- a task that parked has nothing to do -/
theorem turn_parked {answer : Poll} {timer : Timer} (hs : s.status = .alive) (hc : s.cancelled = false) (hi : s.inbox = [])
    (ha : s.abandoned = false) (hp : s.controller.timer.poll now = (answer, timer)) (hready : answer ≠ .ready)
    (hoverflow : answer ≠ .overflow) :
    s.turn now = (false, { s with controller := { s.controller with timer } }) ∧
      ({ s with controller := { s.controller with timer } } : Session I L P).turn now =
        (false, { s with controller := { s.controller with timer } }) := by
  have hcalm : s.controller.Calm now := by
    rw [Controller.Calm, hp]
    exact ⟨hready, hoverflow⟩
  have hpoll : timer.poll now = (answer, timer) := by
    have hagain := Timer.poll_poll hcalm.1
    rwa [hp] at hagain
  have hcalm' : ({ s.controller with timer } : Controller I L P).Calm now := by
    rw [Controller.Calm, hpoll]
    exact ⟨hready, hoverflow⟩
  have hturn := turn_calm hs hc hi ha hcalm
  have hagain := turn_calm (s := { s with controller := { s.controller with timer } }) hs hc hi ha hcalm'
  rw [hp] at hturn
  dsimp only at hagain
  rw [hpoll] at hagain
  exact ⟨hturn, hagain⟩

/-- the controller of the task was reached, as long as the task is alive -/
def Rooted (s : Session I L P) : Prop := s.status = .alive → ∃ past, Controller.Reached past s.controller

theorem Rooted.leads (h : Rooted s) (hlead : Leads s t) : Rooted t := by
  intro ht
  obtain ⟨as, es, hruns⟩ := hlead
  by_cases hs : s.status = .alive
  · obtain ⟨past, hreached⟩ := h hs
    obtain ⟨since, -, hnext⟩ := hruns.reached hreached (by simp [ht])
    exact ⟨past ++ since, hnext⟩
  · exact absurd ht (hruns.over hs).1

/-- a task that took a tick and is still alive is at ease, and has fewer to take -/
theorem AtEase.serveTick (h : AtEase n s) (hrooted : Rooted s) (now : Instant) (hs : s.status = .alive)
    (hready : (s.controller.timer.poll now).1 = .ready)
    (hnext : (s.serveTick now (s.controller.timer.poll now).2).status = .alive) :
    AtEase n (s.serveTick now (s.controller.timer.poll now).2) ∧
      Rooted (s.serveTick now (s.controller.timer.poll now).2) ∧
      (s.serveTick now (s.controller.timer.poll now).2).controller.timer.backlog now < s.controller.timer.backlog now := by
  obtain ⟨past, hreached⟩ := hrooted hs
  obtain ⟨e, -, he⟩ := serveTick_reached (hreached.poll now) (by rw [hnext]; simp)
  cases hvalue : (Controller.tick now { s.controller with timer := (s.controller.timer.poll now).2 }).value with
  | none => simp [serveTick_none hvalue] at hnext
  | some outcome =>
    have hfewer := hreached.backlog_lt hready hvalue
    rw [serveTick_some hvalue] at he ⊢
    exact ⟨⟨tidy_alive hs (h.going hs) h.room h.tickets, h.inbox, h.waiting⟩, fun _ => ⟨_, he⟩, hfewer⟩

/-- **The turns suffice**: a task that settles has no tick left to take. -/
theorem AtEase.turns_park (h : AtEase n s) (hrooted : Rooted s) {fuel : Nat}
    (hfuel : s.controller.timer.backlog now < fuel) : (s.turns now fuel).turn now = (false, s.turns now fuel) := by
  induction fuel generalizing s with
  | zero => exact absurd hfuel (Nat.not_lt_zero _)
  | succ fuel ih =>
    by_cases hs : s.status = .alive
    case neg => rw [turns_over hs, turn_over hs]
    obtain ⟨hc, ha⟩ := h.going hs
    have hturn := turn_poll hs hc h.inbox ha now
    have hserved := h.serveTick hrooted now hs
    cases hp : s.controller.timer.poll now with
    | mk answer timer =>
      rw [hp] at hturn hserved
      unfold Session.turns
      cases answer with
      | ready =>
        dsimp only at hturn
        rw [hturn]
        dsimp only
        by_cases hnext : (s.serveTick now timer).status = .alive
        case neg => rw [turns_over hnext, turn_over hnext]
        obtain ⟨hease, hrooted', hfewer⟩ := hserved rfl hnext
        exact ih hease hrooted' (Nat.lt_of_lt_of_le hfewer (Nat.le_of_lt_succ hfuel))
      | overflow =>
        dsimp only at hturn
        rw [hturn]
        exact turn_over (by simp [Session.close]) now
      | off =>
        obtain ⟨hparked, hagain⟩ := turn_parked hs hc h.inbox ha hp (by simp) (by simp)
        rw [hparked]
        exact hagain
      | pending due =>
        obtain ⟨hparked, hagain⟩ := turn_parked hs hc h.inbox ha hp (by simp) (by simp)
        rw [hparked]
        exact hagain

/-- **Settling twice is settling once.** -/
theorem AtEase.settle_settle (h : AtEase n s) (hrooted : Rooted s) (now : Instant) :
    (s.settle now).settle now = s.settle now := by
  have hsettled := h.settle now
  rw [settle_empty hsettled.inbox hsettled.waiting, settle_empty h.inbox h.waiting, Session.turns,
    h.turns_park hrooted (Nat.lt_succ_self _)]

/-- a task that has settled has no tick to take -/
theorem AtEase.calm_settle (h : AtEase n s) (hrooted : Rooted s) (hs : (s.settle now).status = .alive) :
    (s.settle now).controller.Calm now := by
  have hsettled := h.settle now
  obtain ⟨hc, ha⟩ := hsettled.going hs
  have hpark : (s.settle now).turn now = (false, s.settle now) := by
    rw [settle_empty h.inbox h.waiting]
    exact h.turns_park hrooted (Nat.lt_succ_self _)
  rw [turn_poll hs hc hsettled.inbox ha] at hpark
  rw [Controller.Calm]
  generalize (s.settle now).controller.timer.poll now = p at hpark ⊢
  obtain ⟨answer, timer⟩ := p
  cases answer with
  | ready => simp at hpark
  | overflow =>
    have hcrashed := congrArg (fun p => p.2.status) hpark
    rw [hs] at hcrashed
    cases hcrashed
  | off => exact ⟨by simp, by simp⟩
  | pending due => exact ⟨by simp, by simp⟩

/-- time passes from the moment when the session has settled -/
theorem AtEase.sleep_settle (h : AtEase n s) (hrooted : Rooted s) (now limit : Instant) :
    (s.settle now).sleep now limit = s.sleep now limit := by
  unfold Session.sleep Session.runUntil Session.runInstants
  rw [h.settle_settle hrooted]

/-- a wait for a phase that is not published begins where the session has settled -/
theorem AtEase.waitFor_settle (h : AtEase n s) (hrooted : Rooted s) {target : Phase} (hphase : s.watch.phase ≠ target)
    (now limit : Instant) : (s.settle now).waitFor target now limit = s.waitFor target now limit := by
  by_cases hs : s.status = .alive
  case neg => rw [settle_empty h.inbox h.waiting, turns_over hs]
  have halive : s.isAlive = true := by simpa [isAlive] using hs
  unfold Session.waitFor Session.runUntil Session.runInstants
  rw [h.settle_settle hrooted]
  simp only [hphase, halive]
  by_cases htarget : (s.settle now).watch.phase = target
  · simp [htarget]
  · by_cases hend : (s.settle now).isAlive = true
    · simp [htarget, hend]
    · simp [htarget, eq_false_of_ne_true hend]

/-! ## Sessions stay at ease -/

theorem AtEase.runInstants (h : AtEase n s) (stop : Session I L P → Bool) (limit : Instant) (fuel : Nat) (now : Instant) :
    AtEase n (s.runInstants stop limit fuel now).2 := by
  induction fuel generalizing now s with
  | zero => exact h
  | succ fuel ih =>
    have hsettled := h.settle now
    unfold Session.runInstants
    dsimp only
    split
    · exact hsettled
    · split
      · split
        · exact ih hsettled _
        · exact hsettled
      · exact hsettled

omit [Interpreter I] [Loader L I] [Presenter P] in
theorem AtEase.look (h : AtEase n s) (seen : Nat) : AtEase n { s with seen } :=
  { toTidy := ⟨h.gone, h.going, h.room, h.tickets⟩, inbox := h.inbox, waiting := h.waiting }

theorem AtEase.waitFor (h : AtEase n s) (target : Phase) (now limit : Instant) :
    AtEase n (s.waitFor target now limit).2.2 := by
  unfold Session.waitFor
  dsimp only
  split
  · exact h.look _
  · split
    · exact h.look _
    · exact (h.runInstants _ limit _ now).look _

/-- a task whose turn it is to end is over -/
theorem settle_ended (hi : s.inbox = []) (hw : s.waiting = []) (hroom : 0 < s.capacity) (hn : s.tickets = n)
    (hend : s.status = .alive → s.turn now = (false, s.finish now)) : AtEase n (s.settle now) := by
  rw [settle_empty hi hw]
  by_cases hs : s.status = .alive
  case neg =>
    rw [turns_over hs]
    exact ⟨tidy_over hs hi hw hroom hn, hi, hw⟩
  rw [turns, hend hs]
  exact ⟨tidy_over (by simp [finish, close]) rfl rfl hroom hn, rfl, rfl⟩

theorem AtEase.shutdown (h : AtEase n s) (now : Instant) : AtEase n (s.shutdown now).2 :=
  settle_ended (s := { s with cancelled := true }) h.inbox h.waiting h.room h.tickets fun hs => turn_cancelled hs rfl now

theorem AtEase.abandon (h : AtEase n s) (now : Instant) : AtEase n (s.abandon now) :=
  settle_ended (s := { s with abandoned := true }) h.inbox h.waiting h.room h.tickets fun hs =>
    turn_letGo hs (h.going hs).1 h.inbox rfl now

end Session

end StepControl

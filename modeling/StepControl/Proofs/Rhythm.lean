/-
The rhythm of a session that is left alone.

A timer that was armed at some instant has its due times one delay apart from there on, as long as each tick is taken before the
tolerance is over, and a step that leaves the session running does not touch the timer. A task that parks is woken in the first
whole millisecond from the due time on. So a session that is left alone takes its ticks in these milliseconds.

- `beats`: the first ticks after an arming; where the arming and the delay are whole milliseconds they come exactly one delay
  after the other (`beats_of_whole`).
- `Session.Awaits.turns_beat`: all that the task does in its turns at one instant is to take the next few beats
  (`Session.Beaten`).
- `Session.Awaits.sleep_beats`: as time passes it takes beat after beat, until the time is over or the session runs no longer
  (`Session.InRhythm`).
- `Session.spawn_keepsTime`: when a session was made of a controller that was started before does not matter, as long as it was
  before the first beat. All that the task does until then is to lay the interval down, and it lies where it would lie anyway
  (`Session.spawn_settle`).

The delay is arbitrary, down to a nanosecond: where it is less than a millisecond several beats come at one instant. Of the
interpreter nothing is assumed; where it breaks down, the session runs no longer.
-/
import StepControl.Proofs.Clients
import StepControl.Proofs.Overruns

namespace StepControl

open StepControl.Action

/-- the first `n` ticks of a timer that was armed at `armed` and is asked whenever a due time has come -/
def beats (armed : Instant) (delay : Delay) (n : Nat) : List Act :=
  (List.range n).map fun k => .tick (Instant.rounded (armed + (k + 1) * delay.total))

section

variable {armed now : Nat} {delay : Delay} {m n : Nat}

theorem beat_later (armed : Nat) (delay : Delay) (m k : Nat) :
    armed + m * delay.total + k * delay.total = armed + (m + k) * delay.total := by
  rw [Nat.add_mul, Nat.add_assoc]

theorem beats_add (armed : Nat) (delay : Delay) (m n : Nat) :
    beats armed delay (m + n) = beats armed delay m ++ beats (armed + m * delay.total) delay n := by
  unfold beats
  rw [List.range_add, List.map_append, List.map_map]
  refine congrArg (_ ++ ·) (List.map_congr_left ?_)
  intro k _
  exact congrArg (fun due => Act.tick (Instant.rounded due)) (beat_later armed delay m (k + 1)).symm

/-- a clock that shows whole milliseconds only has them a delay apart where this is a whole number of milliseconds -/
theorem beats_of_whole (harmed : nanosPerMilli ∣ armed) (hdelay : nanosPerMilli ∣ delay.total) (n : Nat) :
    beats armed delay n = (List.range n).map fun k => .tick (armed + (k + 1) * delay.total) := by
  refine List.map_congr_left ?_
  intro k _
  rw [Instant.rounded_of_dvd (Nat.dvd_add harmed (Nat.dvd_mul_left_of_dvd hdelay _))]

/-- the beats of one millisecond -/
theorem beats_eq_replicate (hfirst : now ≤ Instant.rounded (armed + delay.total))
    (hlast : 0 < n → armed + n * delay.total ≤ Instant.whole now) : beats armed delay n = List.replicate n (.tick now) := by
  refine List.eq_replicate_iff.2 ⟨by simp [beats], ?_⟩
  intro act hact
  obtain ⟨k, hk, rfl⟩ := List.mem_map.1 hact
  have hkn : k < n := List.mem_range.1 hk
  have hbefore : armed + (k + 1) * delay.total ≤ armed + n * delay.total :=
    Nat.add_le_add_left (Nat.mul_le_mul_right _ hkn) armed
  have hafter : armed + delay.total ≤ armed + (k + 1) * delay.total :=
    Nat.add_le_add_left (Nat.le_mul_of_pos_left _ (Nat.succ_pos k)) armed
  refine congrArg Act.tick (Nat.le_antisymm ?_ (Nat.le_trans hfirst (Instant.rounded_mono hafter)))
  exact Instant.rounded_le_iff.2 (Nat.le_trans hbefore (hlast (Nat.zero_lt_of_lt hkn)))

end

/-- after a tick that is taken within the tolerance the next one is due one period later -/
theorem Interval.take_soon {now due : Nat} (hsoon : now ≤ due + tolerance) (period : Delay) :
    Interval.take now ⟨period, due⟩ = ⟨period, due + period.total⟩ := by
  unfold Interval.take
  rw [if_pos hsoon]

variable {I L P : Type} [Interpreter I] [Loader L I] [Presenter P]

namespace Controller

variable {c : Controller I L P} {past : List Applied}

/-- a controller that was started keeps its timer armed at that instant -/
theorem Reached.run_arms (h : Reached past c) {armed : Instant} (hrun : (run armed c).value = some (.ok ())) :
    (∃ e, Reached (past ++ [e]) (run armed c).state) ∧
      (run armed c).state.timer.schedule = some { armedAt := armed } := by
  have hperform : (Controller.perform armed .run : Drive I L P Reply) c =
      ⟨some (.result (.ok ())), (run armed c).state, (run armed c).journal⟩ := by
    rw [Controller.perform, map_apply, hrun]
    rfl
  obtain ⟨hnext, htold⟩ := h.told hperform
  exact ⟨⟨_, hnext⟩, (htold.armed rfl).2⟩

/-- a step that a tick brings about leaves the timer of a session that stays running alone -/
theorem Reached.tick_timer (h : Reached past c) {now : Instant} {outcome : Option Outcome}
    (hvalue : (tick now c).value = some outcome) (hp : (tick now c).state.phase = .running) :
    (tick now c).state.timer = c.timer := by
  obtain ⟨-, htold⟩ := h.tick_told hvalue
  exact (htold.kept rfl hp).2

end Controller

namespace Session

open Controller (Reached)

variable {c : Controller I L P} {s t u : Session I L P} {past : List Applied} {delay : Delay} {base now limit : Instant}
  {n : Nat}

/-- a session that runs awaits the tick that is due one delay after `base` -/
def Awaits (base : Instant) (delay : Delay) (s : Session I L P) : Prop :=
  s.status = .alive → s.controller.phase = .running → ∃ armed,
    s.controller.timer = ⟨delay, some ⟨armed, some ⟨delay, base + delay.total⟩⟩⟩

/-- a tick that was served leaves the timer as it was when it was taken off, or the session runs no longer -/
theorem serveTick_timer {timer : Timer} (hc : Reached past ({ s.controller with timer } : Controller I L P))
    (hs : s.status = .alive) (hwhole : (s.serveTick now timer).status ≠ .crashed) :
    (s.serveTick now timer).status = .alive ∧
      (((s.serveTick now timer).controller.phase = .running ∧ (s.serveTick now timer).controller.timer = timer) ∨
        ((s.serveTick now timer).controller.phase ≠ .running ∧ (s.serveTick now timer).controller.timer.schedule = none)) := by
  cases hvalue : (Controller.tick now { s.controller with timer }).value with
  | none =>
    rw [serveTick_none hvalue] at hwhole
    exact absurd rfl hwhole
  | some outcome =>
    obtain ⟨hreached, -⟩ := hc.tick_told hvalue
    have hkept := hc.tick_timer hvalue
    rw [serveTick_some hvalue]
    refine ⟨hs, ?_⟩
    by_cases hp : (Controller.tick now { s.controller with timer }).state.phase = .running
    · exact Or.inl ⟨hp, hkept hp⟩
    · exact Or.inr ⟨hp, hreached.steady.1.timer_off hp⟩

/-- a session that no tick is taken of awaits what it awaited -/
theorem Awaits.idle (h : Awaits base delay s) (hease : AtEase n s) (hs : s.status = .alive)
    (hidle : (s.controller.timer.poll now).1 ≠ .ready) : Awaits base delay (s.turn now).2 := by
  obtain ⟨-, -, hkept⟩ := hease.turn_unready hs hidle
  intro halive hrunning
  rw [(hkept halive).2] at hrunning ⊢
  obtain ⟨armed, htimer⟩ := h hs hrunning
  have hsched : s.controller.timer.schedule = some ⟨armed, some ⟨delay, base + delay.total⟩⟩ := by rw [htimer]
  exact ⟨armed, (Timer.poll_still hsched rfl hidle).trans htimer⟩

/-- a tick that is taken within the tolerance leaves the session to await the one after it -/
theorem Awaits.tick (h : Awaits base delay s) (hc : Reached past s.controller) (hs : s.status = .alive)
    (hsoon : now ≤ base + delay.total + Interval.tolerance) (hready : (s.controller.timer.poll now).1 = .ready) :
    base + delay.total ≤ now.whole ∧
      Awaits (base + delay.total) delay (s.serveTick now (s.controller.timer.poll now).2) := by
  obtain ⟨armed, htimer⟩ := h hs (hc.steady.1.running_of_ready hready)
  obtain ⟨schedule, i, hsched, hlaid, hdue, hpoll⟩ := Timer.ready_cases hready
  rw [htimer] at hsched hlaid
  cases hsched
  cases hlaid
  refine ⟨hdue, fun halive hrunning => ⟨armed, ?_⟩⟩
  have hwhole : (s.serveTick now (s.controller.timer.poll now).2).status ≠ .crashed := by simp [halive]
  rcases (serveTick_timer (hc.poll now) hs hwhole).2 with ⟨-, hsame⟩ | ⟨hstill, -⟩
  · rw [hsame, hpoll, Interval.take_soon hsoon, htimer]
  · exact absurd hrunning hstill

/-- on the way to `t` the session took `k` ticks at `now`, all of them due, and it awaits the one after them -/
structure Beaten (base : Instant) (delay : Delay) (now : Instant) (s : Session I L P) (k : Nat) (t : Session I L P) : Prop where
  runs : Runs s (List.replicate k (.tick now)) [] t
  due : 0 < k → base + k * delay.total ≤ now.whole
  awaits : Awaits (base + k * delay.total) delay t

theorem Beaten.none (hruns : Runs s [] [] t) (h : Awaits base delay t) : Beaten base delay now s 0 t := by
  refine ⟨hruns, fun hpos => absurd hpos (Nat.lt_irrefl 0), ?_⟩
  rwa [Nat.zero_mul, Nat.add_zero]

theorem Beaten.cons {k : Nat} (hstep : Runs s [.tick now] [] t) (hdue : base + delay.total ≤ now.whole)
    (h : Beaten (base + delay.total) delay now t k u) : Beaten base delay now s (k + 1) u := by
  obtain ⟨hruns, hlast, hend⟩ := h
  have hlater : base + delay.total + k * delay.total = base + (k + 1) * delay.total := by
    calc
      base + delay.total + k * delay.total = base + 1 * delay.total + k * delay.total := by rw [Nat.one_mul]
      _ = base + (1 + k) * delay.total := beat_later base delay 1 k
      _ = base + (k + 1) * delay.total := by rw [Nat.add_comm 1 k]
  rw [hlater] at hlast hend
  refine ⟨hstep.trans hruns, ?_, hend⟩
  intro _
  cases k with
  | zero => rwa [Nat.zero_add, Nat.one_mul]
  | succ k => exact hlast (Nat.succ_pos k)

/-- **The beats of one instant**: a task that takes turns at `now`, where the tick that it awaits is not late by more than the
tolerance, takes beats until none is due. -/
theorem Awaits.turns_beat (h : Awaits base delay s) (hease : AtEase n s) (hrooted : Rooted s)
    (hsoon : now ≤ base + delay.total + Interval.tolerance) {fuel : Nat}
    (hfuel : s.controller.timer.backlog now < fuel) : ∃ k, Beaten base delay now s k (s.turns now fuel) := by
  induction fuel generalizing base s with
  | zero => exact absurd hfuel (Nat.not_lt_zero _)
  | succ fuel ih =>
    by_cases hs : s.status = .alive
    case neg =>
      rw [turns_over hs]
      exact ⟨0, .none .refl h⟩
    have hstep := (Step.turn s now).runs
    by_cases hready : (s.controller.timer.poll now).1 = .ready
    case neg =>
      obtain ⟨hturn, hacts, -⟩ := hease.turn_unready hs hready
      rw [hacts] at hstep
      rw [Session.turns, hturn]
      exact ⟨0, .none hstep (h.idle hease hs hready)⟩
    obtain ⟨past, hc⟩ := hrooted hs
    obtain ⟨hturn, hacts⟩ := hease.turn_ready hs hready
    obtain ⟨hdue, hawaits⟩ := h.tick hc hs hsoon hready
    rw [hacts, hturn] at hstep
    rw [Session.turns, hturn]
    dsimp only
    by_cases hnext : (s.serveTick now (s.controller.timer.poll now).2).status = .alive
    case neg =>
      rw [turns_over hnext]
      exact ⟨1, .cons hstep hdue (.none .refl hawaits)⟩
    obtain ⟨hease', hrooted', hfewer⟩ := hease.serveTick hrooted now hs hready hnext
    have hsoon' : now ≤ base + delay.total + delay.total + Interval.tolerance :=
      Nat.le_trans hsoon (Nat.add_le_add_right (Nat.le_add_right _ _) _)
    obtain ⟨k, hrest⟩ := ih hawaits hease' hrooted' hsoon' (Nat.lt_of_lt_of_le hfewer (Nat.le_of_lt_succ hfuel))
    exact ⟨k + 1, .cons hstep hdue hrest⟩

/-- there is nothing to wake a task that is over, or a session that does not run -/
theorem Rooted.wake?_eq_none (h : Rooted s) (hlive : ¬ (s.status = .alive ∧ s.controller.phase = .running)) :
    s.wake? = none := by
  refine Option.map_eq_none_iff.2 ?_
  by_cases hs : s.status = .alive
  · obtain ⟨past, hc⟩ := h hs
    have hoff := hc.steady.1.timer_off fun hp => hlive ⟨hs, hp⟩
    rw [due?_alive hs, Timer.due?, hoff]
    rfl
  · exact due?_over hs

/-- on the way to `t` the session took `k` beats, all before `limit`; where it still runs, the next one is not before that -/
structure InRhythm (base : Instant) (delay : Delay) (limit : Instant) (s : Session I L P) (k : Nat) (t : Session I L P) :
    Prop where
  runs : Runs s (beats base delay k) [] t
  before : 0 < k → Instant.rounded (base + k * delay.total) < limit
  after : t.status = .alive → t.controller.phase = .running → limit ≤ Instant.rounded (base + (k + 1) * delay.total)

theorem InRhythm.none (hafter : s.status = .alive → s.controller.phase = .running →
    limit ≤ Instant.rounded (base + delay.total)) : InRhythm base delay limit s 0 s := by
  refine ⟨.refl, fun hpos => absurd hpos (Nat.lt_irrefl 0), ?_⟩
  rwa [Nat.zero_add, Nat.one_mul]

/-- the beats of one millisecond, and then those of the time after it -/
theorem Beaten.inRhythm {j k : Nat} (hfirst : Beaten base delay now s j t) (hnow : Instant.rounded (base + delay.total) = now)
    (hbefore : now < limit) (hrest : InRhythm (base + j * delay.total) delay limit t k u) :
    InRhythm base delay limit s (j + k) u := by
  obtain ⟨hticks, hdue, -⟩ := hfirst
  obtain ⟨hruns, hlast, hafter⟩ := hrest
  rw [beat_later] at hlast hafter
  refine ⟨?_, ?_, hafter⟩
  · rw [← beats_eq_replicate (Nat.le_of_eq hnow.symm) hdue] at hticks
    rw [beats_add]
    exact hticks.trans hruns
  · intro hpos
    cases k with
    | zero => exact Nat.lt_of_le_of_lt (Instant.rounded_le_iff.2 (hdue hpos)) hbefore
    | succ k => exact hlast (Nat.succ_pos k)

/-- **Beat after beat**: a session that is left alone takes one tick after the other, each in the millisecond in which it is due,
until the time is over or it no longer runs. -/
theorem Awaits.sleep_beats (h : Awaits base delay s) (hease : AtEase n s) (hrooted : Rooted s)
    (hpark : s.settle now = s) (limit : Instant) : ∃ k, InRhythm base delay limit s k (s.sleep now limit) := by
  -- on the time that is left: where the task is woken before the limit, less of it is left then
  induction hspan : limit - now using Nat.strongRecOn generalizing now base s with
  | _ span ih =>
    have hparts := hease.sleep_wakes hrooted now limit
    rw [hpark] at hparts
    by_cases hlive : s.status = .alive ∧ s.controller.phase = .running
    case neg =>
      rw [hrooted.wake?_eq_none hlive] at hparts
      rw [hparts]
      exact ⟨0, .none fun hs hp => absurd ⟨hs, hp⟩ hlive⟩
    obtain ⟨hs, hp⟩ := hlive
    obtain ⟨armed, htimer⟩ := h hs hp
    generalize hwaits : Instant.rounded (base + delay.total) = due
    have hwake : s.wake? = some due := by
      rw [wake?, due?_alive hs, htimer, ← hwaits]
      rfl
    have hlater : now < due := hease.wake_lt hrooted (by rw [hpark, hwake])
    rw [hwake] at hparts
    dsimp only at hparts
    split at hparts
    case isTrue hbefore =>
      have hsoon : due ≤ base + delay.total + Interval.tolerance := by
        calc
          due ≤ base + delay.total + nanosPerMilli := hwaits ▸ Nat.le_of_lt (Instant.rounded_lt _)
          _ ≤ base + delay.total + Interval.tolerance := Nat.add_le_add_left (by decide) _
      obtain ⟨j, hfirst⟩ := h.turns_beat hease hrooted hsoon (Nat.lt_succ_self _)
      rw [← settle_empty hease.inbox hease.waiting] at hfirst
      have hrooted' := hrooted.leads (leads_settle due s)
      have hless : limit - due < span := hspan ▸ Nat.sub_lt_sub_left (Nat.lt_trans hlater hbefore) hlater
      obtain ⟨k, hrest⟩ := ih _ hless hfirst.awaits (hease.settle due) hrooted' (hease.settle_settle hrooted _) rfl
      rw [hease.sleep_settle hrooted, ← hparts] at hrest
      exact ⟨j + k, hfirst.inRhythm hwaits hbefore hrest⟩
    case isFalse hafter =>
      rw [hparts]
      refine ⟨0, .none ?_⟩
      intro _ _
      rw [hwaits]
      exact Nat.le_of_not_lt hafter

/-! ## Sessions of controllers that were started before -/

/-- a session of a controller whose timer was armed, once its task has run: the interval is laid down, or the task broke down
because it cannot be -/
def armedIn (armed : Instant) (s : Session I L P) : Session I L P :=
  if Instant.rounded (armed + s.controller.timer.delay.total) < Instant.limit then
    { s with controller := { s.controller with timer :=
      ⟨s.controller.timer.delay, some ⟨armed, some ⟨s.controller.timer.delay, armed + s.controller.timer.delay.total⟩⟩⟩ } }
  else s.close .crashed

/-- **Until the first tick is due it does not matter when the task runs.** -/
theorem spawn_settle (hs : spawn? c = some s) {armed : Instant} (harmed : c.timer.schedule = some { armedAt := armed })
    (hnow : now < armed + c.timer.delay.total) : s.settle now = s.armedIn armed ∧ Runs s [] [] (s.settle now) := by
  have hnew := spawn?_eq hs
  have hstart : s.controller = c ∧ s.status = .alive ∧ s.cancelled = false ∧ s.inbox = [] ∧ s.waiting = [] ∧
      s.abandoned = false := by
    rw [hnew]
    exact ⟨rfl, rfl, rfl, rfl, rfl, rfl⟩
  obtain ⟨hcontroller, halive, hgoing, hinbox, hwaiting, hheld⟩ := hstart
  have hpoll := turn_poll halive hgoing hinbox hheld now
  have hturned : s.turn now = (false, s.armedIn armed) ∧ s.acts now = [] := by
    rw [← hcontroller] at harmed hnow
    by_cases hlimit : Instant.rounded (armed + s.controller.timer.delay.total) < Instant.limit
    · have hlaid : ({ armedAt := armed } : Schedule).interval? s.controller.timer.delay =
          some ⟨s.controller.timer.delay, armed + s.controller.timer.delay.total⟩ := if_pos hlimit
      have hpending := Timer.poll_pending harmed hlaid (Nat.lt_of_le_of_lt (Instant.whole_le now) hnow)
      refine ⟨?_, by simp [acts, halive, hgoing, hinbox, hpending]⟩
      rw [hpoll, hpending, armedIn, if_pos hlimit]
    · have hnone : ({ armedAt := armed } : Schedule).interval? s.controller.timer.delay = none := if_neg hlimit
      have hoverflow : s.controller.timer.poll now = (.overflow, s.controller.timer) := Timer.poll_overflow harmed hnone
      refine ⟨?_, by simp [acts, halive, hgoing, hinbox, hoverflow]⟩
      rw [hpoll, hoverflow, armedIn, if_neg hlimit]
  obtain ⟨hturn, hacts⟩ := hturned
  have hsettle : s.settle now = s.armedIn armed := by rw [settle_empty hinbox hwaiting, turns, hturn]
  refine ⟨hsettle, ?_⟩
  have hstep := (Step.turn s now).runs
  rw [hacts, hturn] at hstep
  rwa [hsettle]

/-- how a session whose timer was armed at `armed` takes its ticks, where it is left alone from `now` until `limit` -/
structure KeepsTime (armed : Instant) (delay : Delay) (now limit : Instant) (s : Session I L P) : Prop where
  /-- it does not matter in which millisecond it is left alone, as long as it is before the first tick -/
  whenever : ∀ now', nanosPerMilli ∣ now' → now' < armed + delay.total → s.sleep now' limit = s.sleep now limit
  /-- the ticks are due one delay after the other, and come in the millisecond in which they are due, until the time is over or
  the session no longer runs -/
  ticks : ∃ k, Runs s (beats armed delay k) [] (s.sleep now limit) ∧
    (0 < k → Instant.rounded (armed + k * delay.total) < limit) ∧
    ((s.sleep now limit).status = .alive → (s.sleep now limit).controller.phase = .running →
      limit ≤ Instant.rounded (armed + (k + 1) * delay.total))
  /-- where arming and delay are whole milliseconds this is the instant at which they are due -/
  prompt : nanosPerMilli ∣ armed → nanosPerMilli ∣ delay.total → ∀ k,
    beats armed delay k = (List.range k).map fun i => .tick (armed + (i + 1) * delay.total)

/-- **A controller that was started before it was handed over gets its ticks as if it had been handed over at once**, a delay
apart since it was started, whenever its session was made before the first of them is due. -/
theorem spawn_keepsTime (hc : Reached past c) (hs : spawn? c = some s) {armed : Instant}
    (harmed : c.timer.schedule = some { armedAt := armed }) (hnow : now < armed + c.timer.delay.total) (limit : Instant) :
    KeepsTime armed c.timer.delay now limit s := by
  have hsound := Client.sound_spawn hc hs 0
  have hease : AtEase 0 s := hsound.ease
  have hrooted : Rooted s := hsound.rooted
  have hcontroller : s.controller = c := by rw [spawn?_eq hs]
  have hsleep : ∀ at', at' < armed + c.timer.delay.total → (s.armedIn armed).sleep at' limit = s.sleep at' limit := by
    intro at' hat
    rw [← (spawn_settle hs harmed hat).1, hease.sleep_settle hrooted]
  obtain ⟨hsettle, hfirst⟩ := spawn_settle hs harmed hnow
  have hease' := hease.settle now
  have hrooted' := hrooted.leads (leads_settle now s)
  have hparks : ∀ at', at' < armed + c.timer.delay.total → (s.armedIn armed).settle at' = s.armedIn armed := by
    intro at' hat
    have hagain := hease.settle_settle hrooted at'
    rwa [(spawn_settle hs harmed hat).1] at hagain
  rw [hsettle] at hease' hrooted' hfirst
  refine ⟨?_, ?_, beats_of_whole⟩
  · intro now' _ hnow'
    rw [← hsleep now' hnow', ← hsleep now hnow, hease'.sleep_wakes hrooted', hease'.sleep_wakes hrooted', hparks now' hnow',
      hparks now hnow]
  · have hawaits : Awaits armed c.timer.delay (s.armedIn armed) := by
      intro halive _
      refine ⟨armed, ?_⟩
      unfold armedIn at halive ⊢
      split at halive
      case isTrue hlimit => rw [if_pos hlimit, hcontroller]
      case isFalse => cases halive
    obtain ⟨k, hruns, hlast, hend⟩ := hawaits.sleep_beats hease' hrooted' (hparks now hnow) limit
    rw [hsleep now hnow] at hruns hend
    exact ⟨k, by simpa using hfirst.trans hruns, hlast, hend⟩

end Session

end StepControl

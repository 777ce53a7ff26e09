/-
How many ticks come at once, where some were missed.

A tick that is taken late by no more than the tolerance does not move the due times after it. So the ticks that were missed
are made up for, at one instant, as far as they fit in the tolerance: where the delay is longer than that no two ticks come
at the same instant, but where it is 5 ms or less they do.

(1) In a run. `Within` is the invariant: as long as the timer has another tick to give at the instant of the last ones, its
due time and the ticks that were given leave no more than the tolerance between them. A command that arms the timer puts an
end to it, since the next tick is due one delay later then.
- `Session.Within.step` / `Session.Runs.within`: one step keeps it, and so does a run.
- `Session.Within.atOnce`: a tick that is taken after others at the same instant fits in the tolerance with them.

(2) Left alone until it runs again at `now`. How many ticks a task owes is a number (`dueTicks`): one, where the first was
due longer ago than the tolerance, and else as many as were missed.
- `dueTicks_take`: a tick that is taken is one less.
- `Session.AtEase.turns_catchUp`: by induction on its turns, the task takes what it owes; where it takes less, the session
  came to an end in between.

Results: `Session.runs_atOnce` is both; `Session.jump_bursts` is a delay of 1 ms with which a clock that jumps by 3 ms
brings three steps at one instant.

Premises: in (1) the clock does not go back (`InOrder`). Delays, jumps and commands are arbitrary, and the interpreter may
break down. That due times follow from each other in this way is the timer's (`Interval.take`).
-/
import StepControl.Proofs.Drift

namespace StepControl

open StepControl.Action

def Delay.milli : Delay := ⟨.ofMillis 1, by decide +kernel⟩

/-! ## Ticks that are due -/

/-- the ticks that can be taken at `now` where the first was due at `due`: one, where that is longer ago than the tolerance,
and else as many as were missed -/
def dueTicks (delay : Delay) (due now : Nat) : Nat :=
  if Instant.whole now < due then 0
  else if now ≤ due + Interval.tolerance then (Instant.whole now - due) / delay.total + 1
  else 1

/-- a tick that is taken is one less -/
theorem dueTicks_take (delay : Delay) {due now : Nat} (h : due ≤ Instant.whole now) :
    dueTicks delay due now = dueTicks delay (dueAfter delay due now) now + 1 := by
  have hpositive : 0 < delay.total := delay.positive
  have hwhole : Instant.whole now ≤ now := Instant.whole_le now
  unfold dueTicks
  rw [if_neg (Nat.not_lt_of_le h)]
  by_cases hsoon : now ≤ due + Interval.tolerance
  · rw [if_pos hsoon, dueAfter_soon hsoon]
    by_cases hnext : Instant.whole now < due + delay.total
    · have hnone : (Instant.whole now - due) / delay.total = 0 := Nat.div_eq_of_lt (by omega)
      rw [if_pos hnext, hnone]
    · have hless : (Instant.whole now - due) / delay.total = (Instant.whole now - (due + delay.total)) / delay.total + 1 := by
        rw [Nat.div_eq_sub_div hpositive (by omega), Nat.sub_sub]
      rw [if_neg hnext, if_pos (by omega), hless]
  · rw [if_neg hsoon, dueAfter_late hsoon, if_pos (by omega)]

namespace Timer

variable {t : Timer} {now due : Instant}

/-- the ticks that the timer can give at `now`, one after the other -/
def ready (now : Instant) (t : Timer) : Nat :=
  match t.due? with
  | none => 0
  | some due => dueTicks t.delay due now

theorem ready_off (h : t.schedule = none) (now : Instant) : t.ready now = 0 := by
  simp [ready, due?, h]

/-- a timer that is set for later has none to give -/
theorem ready_early (h : ∀ due, t.due? = some due → now.whole < due) : t.ready now = 0 := by
  unfold ready
  cases hdue : t.due? with
  | none => rfl
  | some due => exact if_pos (h due hdue)

/-- a timer that gives a tick is set for the next one -/
theorem Even.due?_poll (h : Even t) (hready : (t.poll now).1 = .ready) :
    ∃ due, t.due? = some due ∧ due ≤ now.whole ∧ (t.poll now).2.due? = some (dueAfter t.delay due now) := by
  obtain ⟨s, i, hs, hi, hdue, hpoll⟩ := ready_cases hready
  refine ⟨i.due, by simp [due?, hs, hi], hdue, ?_⟩
  rw [hpoll, ← h.interval? hs hi]
  rfl

theorem Even.ready_poll (h : Even t) (hready : (t.poll now).1 = .ready) :
    t.ready now = (t.poll now).2.ready now + 1 := by
  obtain ⟨due, hdue, hle, hnext⟩ := h.due?_poll hready
  rw [ready, ready, hdue, hnext, poll_delay]
  exact dueTicks_take t.delay hle

/-- a timer that was armed just now gives no tick yet -/
theorem lt_due_of_armed {armed : Instant} (h : t.schedule = some { armedAt := armed }) (hdue : t.due? = some due) :
    armed < due := by
  obtain ⟨s, hs, harmed, hfirst⟩ := (fresh_of_armed h).interval?_eq
  obtain ⟨s', hs', hlaid⟩ := Option.bind_eq_some_iff.1 hdue
  obtain rfl : s = s' := Option.some.inj (hs.symm.trans hs')
  obtain ⟨i, hi, rfl⟩ := Option.map_eq_some_iff.1 hlaid
  rw [hfirst i hi]
  exact Nat.lt_add_of_pos_right t.delay.positive

end Timer

/-! ## Ticks at one instant -/

def InOrder (acts : List Act) : Prop := acts.Pairwise fun earlier later => earlier.asked.1 ≤ later.asked.1

instance (acts : List Act) : Decidable (InOrder acts) := inferInstanceAs (Decidable (List.Pairwise _ _))

/-- the acts before the last are not later than it -/
theorem InOrder.le_last {front : List Act} {last : Act} (h : InOrder (front ++ [last])) {act : Act} (hact : act ∈ front) :
    act.asked.1 ≤ last.asked.1 := (List.pairwise_append.1 h).2.2 act hact last (List.mem_singleton_self last)

theorem InOrder.front {front back : List Act} (h : InOrder (front ++ back)) : InOrder front := (List.pairwise_append.1 h).1

def ticksAt (now : Instant) (acts : List Act) : Nat := acts.count (.tick now)

section

variable {now : Instant}

theorem ticksAt_dispatch (later now : Instant) (command : Command) (acts : List Act) :
    ticksAt later (acts ++ [.dispatch now command]) = ticksAt later acts := by
  simp [ticksAt]

theorem ticksAt_tick (now : Instant) (acts : List Act) : ticksAt now (acts ++ [.tick now]) = ticksAt now acts + 1 := by
  simp [ticksAt]

theorem ticksAt_eq_zero {acts : List Act} (h : Act.tick now ∉ acts) : ticksAt now acts = 0 := List.count_eq_zero.2 h

theorem ticksAt_pos {acts : List Act} (h : Act.tick now ∈ acts) : 0 < ticksAt now acts := List.count_pos_iff.2 h

end

namespace Session

open Controller (Reached)

variable {I L P : Type} [Interpreter I] [Loader L I] [Presenter P] {c : Controller I L P} {s t : Session I L P}
  {past : List Applied} {now : Instant} {as bs : List Act} {es : List Command} {n : Nat}

/-- as long as the timer has a tick to give at the instant of the last ones, those and the delays after them fit in the
tolerance -/
def Within (as : List Act) (s : Session I L P) : Prop :=
  s.status ≠ .crashed → ∀ now due : Nat, Act.tick now ∈ as → (∀ act ∈ as, act.asked.1 ≤ now) →
    s.controller.timer.due? = some due → due ≤ now →
    now + ticksAt now as * s.controller.timer.delay.total ≤ due + Interval.tolerance

/-- a command that is served leaves the timer alone, or arms it, or switches it off -/
theorem serve_timer {command : Command} {rest : List Command} (hc : Reached past s.controller)
    (hwhole : ({ s with inbox := rest }.serve now command).status ≠ .crashed) :
    ({ s with inbox := rest }.serve now command).controller.timer = s.controller.timer ∨
      ({ s with inbox := rest }.serve now command).controller.timer.schedule = some { armedAt := now } ∨
      ({ s with inbox := rest }.serve now command).controller.timer.schedule = none := by
  cases hvalue : (Controller.dispatch now command.intent s.controller).value with
  | none =>
    rw [serve_none (s := { s with inbox := rest }) hvalue] at hwhole
    exact absurd rfl hwhole
  | some result =>
    have hperform : (Controller.perform now (.dispatch command.intent) : Drive I L P Reply) s.controller =
        ⟨some (.result result), (Controller.dispatch now command.intent s.controller).state,
          (Controller.dispatch now command.intent s.controller).journal⟩ := by
      rw [Controller.perform, map_apply, hvalue]
      rfl
    obtain ⟨hreached, htold⟩ := hc.told hperform
    rw [serve_some (s := { s with inbox := rest }) hvalue]
    dsimp only
    generalize (Controller.dispatch now command.intent s.controller).state = d at hreached htold ⊢
    by_cases hp : d.phase = .running
    · cases harms : (Controller.applied now (.dispatch command.intent) (.result result) s.controller d).arms with
      | true => exact Or.inr (Or.inl (htold.armed harms).2)
      | false => exact Or.inl (htold.kept harms hp).2
    · exact Or.inr (Or.inr (hreached.steady.1.timer_off hp))

/-- where a command was served the timer is as before, or has no tick to give yet -/
theorem Within.serve {command : Command} {rest : List Command} (h : Within as s) (hc : Reached past s.controller)
    (hs : s.status = .alive) (horder : InOrder (as ++ [.dispatch now command])) :
    Within (as ++ [.dispatch now command]) ({ s with inbox := rest }.serve now command) := by
  intro hwhole later due hmem hlast hdue hle
  have htick : Act.tick later ∈ as := by simpa using hmem
  rw [ticksAt_dispatch]
  rcases serve_timer hc hwhole with hsame | harmed | hoff
  · rw [hsame] at hdue ⊢
    exact h (by simp [hs]) later due htick (fun act hact => hlast act (List.mem_append_left _ hact)) hdue hle
  · -- the timer was armed at this instant, and nothing is due before one delay is over
    have hbefore : now < due := Timer.lt_due_of_armed harmed hdue
    exact absurd (Nat.le_trans hle (horder.le_last htick)) (Nat.not_le_of_lt hbefore)
  · simp [Timer.due?, hoff] at hdue

/-- a tick that is taken in time moves the due time by one delay, and one that is not moves it past the present -/
theorem Within.tick (h : Within as s) (hc : Reached past s.controller) (hs : s.status = .alive)
    (hready : (s.controller.timer.poll now).1 = .ready) (horder : InOrder (as ++ [.tick now])) :
    Within (as ++ [.tick now]) (s.serveTick now (s.controller.timer.poll now).2) := by
  intro hwhole later next hmem hlast hnext hle
  obtain ⟨due, hdue, hwhole', hafter⟩ := hc.even.due?_poll hready
  have hlate : due ≤ now := Nat.le_trans hwhole' (Instant.whole_le now)
  rcases (serveTick_timer (hc.poll now) hs hwhole).2 with ⟨-, hsame⟩ | ⟨-, hoff⟩
  case inr => simp [Timer.due?, hoff] at hnext
  rw [hsame] at hnext ⊢
  have hmoved : dueAfter s.controller.timer.delay due now = next := Option.some.inj (hafter.symm.trans hnext)
  obtain rfl : later = now := by
    have hnow : now ≤ later := hlast (.tick now) (by simp)
    rcases List.mem_append.1 hmem with hold | hnew
    · exact Nat.le_antisymm (horder.le_last hold) hnow
    · simpa using hnew
  rw [Timer.poll_delay, ticksAt_tick, Nat.succ_mul]
  by_cases hsoon : later ≤ due + Interval.tolerance
  · rw [dueAfter_soon hsoon] at hmoved
    by_cases hold : Act.tick later ∈ as
    · have hbefore := h (by simp [hs]) later due hold (fun act hact => hlast act (List.mem_append_left _ hact)) hdue hlate
      omega
    · rw [ticksAt_eq_zero hold, Nat.zero_mul]
      omega
  · have hpositive : 0 < s.controller.timer.delay.total := s.controller.timer.delay.positive
    rw [dueAfter_late hsoon] at hmoved
    omega

/-- **What one step keeps** of the ticks at the last instant. -/
theorem Within.step (h : Within as s) (hrooted : Rooted s) (hstep : Step s bs es t) (horder : InOrder (as ++ bs)) :
    Within (as ++ bs) t := by
  rcases hstep.act_cases with rfl | ⟨now, command, rest, rfl, hs, rfl⟩ | ⟨now, rfl, hs, hready, rfl⟩
  · rw [List.append_nil]
    intro hwhole now due hmem hlast hdue hle
    have hlaid := hstep.laid_timer hwhole
    rw [Timer.due?_eq hlaid] at hdue
    rw [Timer.delay_eq hlaid]
    exact h (mt hstep.crashed hwhole) now due hmem hlast hdue hle
  · obtain ⟨past, hc⟩ := hrooted hs
    exact h.serve hc hs horder
  · obtain ⟨past, hc⟩ := hrooted hs
    exact h.tick hc hs hready horder

theorem Runs.within (h : Runs s as es t) (hrooted : Rooted s) (horder : InOrder as) : Within as t := by
  induction h with
  | refl => exact fun _ now due hmem => absurd hmem List.not_mem_nil
  | snoc front last ih => exact (ih horder.front).step (hrooted.leads ⟨_, _, front⟩) last horder

/-! ## Left alone -/

def owed (now : Instant) (s : Session I L P) : Nat := if s.isAlive then s.controller.timer.ready now else 0

omit [Interpreter I] [Loader L I] [Presenter P] in
theorem owed_over (hs : s.status ≠ .alive) (now : Instant) : s.owed now = 0 := if_neg (by simpa [isAlive] using hs)

omit [Interpreter I] [Loader L I] [Presenter P] in
theorem owed_alive (hs : s.status = .alive) (now : Instant) : s.owed now = s.controller.timer.ready now :=
  if_pos (by simpa [isAlive] using hs)

/-- from `s` to `t` the task took `k` ticks at `now`: all that it owed, if the session runs on after them -/
structure CatchesUp (now : Instant) (k : Nat) (s t : Session I L P) : Prop where
  ticks : Runs s (List.replicate k (.tick now)) [] t
  most : k ≤ s.owed now
  ran : t.status = .alive → t.controller.phase = .running → s.status = .alive ∧ s.controller.phase = .running
  all : t.status = .alive → t.controller.phase = .running → k = s.owed now

/-- a task that is over takes no ticks -/
theorem catchesUp_over (hs : s.status ≠ .alive) (now : Instant) : CatchesUp now 0 s s where
  ticks := .refl
  most := Nat.zero_le _
  ran halive := absurd halive hs
  all halive := absurd halive hs

/-- neither does one whose timer is asked in vain -/
theorem AtEase.turn_idle (h : AtEase n s) (hs : s.status = .alive) (hidle : (s.controller.timer.poll now).1 ≠ .ready) :
    s.turn now = (false, (s.turn now).2) ∧ CatchesUp now 0 s (s.turn now).2 := by
  obtain ⟨hturn, hacts, hkept⟩ := h.turn_unready hs hidle
  have hstep := (Step.turn s now).runs
  rw [hacts] at hstep
  refine ⟨hturn, hstep, Nat.zero_le _, ?_, ?_⟩
  · intro halive hrunning
    rw [(hkept halive).2] at hrunning
    exact ⟨hs, hrunning⟩
  · intro halive _
    rw [owed_alive hs]
    exact (Timer.ready_early fun due => (hkept halive).1.lt_due).symm

/-- a tick that the task takes is one less that it owes, or the session does not run on -/
theorem owed_serveTick (hc : Reached past s.controller) (hs : s.status = .alive)
    (hready : (s.controller.timer.poll now).1 = .ready) :
    (s.serveTick now (s.controller.timer.poll now).2).owed now + 1 ≤ s.owed now ∧
      ((s.serveTick now (s.controller.timer.poll now).2).status = .alive →
        (s.serveTick now (s.controller.timer.poll now).2).controller.phase = .running →
        (s.serveTick now (s.controller.timer.poll now).2).owed now + 1 = s.owed now) := by
  rw [owed_alive hs, hc.even.ready_poll hready]
  by_cases hwhole : (s.serveTick now (s.controller.timer.poll now).2).status = .crashed
  case pos =>
    rw [owed_over (by simp [hwhole])]
    exact ⟨Nat.le_add_left 1 _, fun halive => by simp [hwhole] at halive⟩
  obtain ⟨halive, htimer⟩ := serveTick_timer (hc.poll now) hs hwhole
  rw [owed_alive halive]
  rcases htimer with ⟨-, hsame⟩ | ⟨hstill, hoff⟩
  · rw [hsame]
    exact ⟨Nat.le_refl _, fun _ _ => rfl⟩
  · rw [Timer.ready_off hoff]
    exact ⟨Nat.le_add_left 1 _, fun _ hrunning => absurd hrunning hstill⟩

/-- **One more tick**: what a session catches up after it took one is what it catches up. -/
theorem CatchesUp.tick {k : Nat} (hc : Reached past s.controller) (hs : s.status = .alive)
    (hready : (s.controller.timer.poll now).1 = .ready) (hacts : s.acts now = [.tick now])
    (hturn : s.turn now = (true, s.serveTick now (s.controller.timer.poll now).2))
    (h : CatchesUp now k (s.serveTick now (s.controller.timer.poll now).2) t) : CatchesUp now (k + 1) s t := by
  obtain ⟨hless, hone⟩ := owed_serveTick hc hs hready
  have hrunning : s.controller.phase = .running := hc.steady.1.running_of_ready hready
  have hstep := (Step.turn s now).runs
  rw [hacts, hturn] at hstep
  refine ⟨hstep.trans h.ticks, Nat.le_trans (Nat.add_le_add_right h.most 1) hless, fun _ _ => ⟨hs, hrunning⟩, ?_⟩
  intro halive hruns
  obtain ⟨hnext, hgoes⟩ := h.ran halive hruns
  rw [h.all halive hruns, hone hnext hgoes]

/-- **A task that works at `now` takes the ticks that it owes.** -/
theorem AtEase.turns_catchUp (h : AtEase n s) (hrooted : Rooted s) {fuel : Nat}
    (hfuel : s.controller.timer.backlog now < fuel) : ∃ k, CatchesUp now k s (s.turns now fuel) := by
  induction fuel generalizing s with
  | zero => exact absurd hfuel (Nat.not_lt_zero _)
  | succ fuel ih =>
    by_cases hs : s.status = .alive
    case neg =>
      rw [turns_over hs]
      exact ⟨0, catchesUp_over hs now⟩
    by_cases hready : (s.controller.timer.poll now).1 = .ready
    case neg =>
      obtain ⟨hturn, hidle⟩ := h.turn_idle hs hready
      rw [turns, hturn]
      exact ⟨0, hidle⟩
    obtain ⟨past, hc⟩ := hrooted hs
    obtain ⟨hturn, hacts⟩ := h.turn_ready hs hready
    rw [turns, hturn]
    dsimp only
    by_cases hnext : (s.serveTick now (s.controller.timer.poll now).2).status = .alive
    · obtain ⟨hease, hrooted', hfewer⟩ := h.serveTick hrooted now hs hready hnext
      obtain ⟨k, hk⟩ := ih hease hrooted' (Nat.lt_of_lt_of_le hfewer (Nat.le_of_lt_succ hfuel))
      exact ⟨k + 1, hk.tick hc hs hready hacts hturn⟩
    · rw [turns_over hnext]
      exact ⟨1, (catchesUp_over hnext now).tick hc hs hready hacts hturn⟩

/-! ## Bursts of ticks -/

/-- what a task at rest does where it runs again at `now`: it takes `k` ticks, each of them one step, and is not woken again at
that instant -/
structure WakesUp (now : Instant) (k : Nat) (t : Session I L P) : Prop where
  catchesUp : CatchesUp now k t (t.settle now)
  steps : (t.settle now).steps = t.steps ++ List.replicate k now
  later : ∀ due, (t.settle now).wake? = some due → now < due

theorem AtEase.wakesUp (h : AtEase n s) (hrooted : Rooted s) (now : Instant) : ∃ k, WakesUp now k s := by
  obtain ⟨k, hk⟩ := h.turns_catchUp hrooted (Nat.lt_succ_self (s.controller.timer.backlog now))
  rw [← settle_empty h.inbox h.waiting] at hk
  have hnone : dispatched (List.replicate k (.tick now)) = [] := by simp [dispatched, Act.command?]
  refine ⟨k, hk, ?_, fun due => h.wake_lt hrooted⟩
  rw [hk.ticks.steps_eq hrooted hnone, List.map_replicate]
  rfl

/-- a tick that is taken at `now` after `before`: those at this instant before it, with a delay for each, fit in the tolerance;
so where the delay is longer than that there were none -/
structure AtOnce (before : List Act) (now : Instant) (delay : Delay) : Prop where
  fits : ticksAt now before * delay.total ≤ Interval.tolerance
  first : Interval.tolerance < delay.total → Act.tick now ∉ before

theorem Within.atOnce (h : Within as s) (hs : s.status = .alive) (hready : (s.controller.timer.poll now).1 = .ready)
    (hc : Reached past s.controller) (horder : InOrder (as ++ [.tick now])) : AtOnce as now s.controller.delay := by
  obtain ⟨due, hdue, hwhole, -⟩ := hc.even.due?_poll hready
  have hle : due ≤ now := Nat.le_trans hwhole (Instant.whole_le now)
  have hfits : ticksAt now as * s.controller.delay.total ≤ Interval.tolerance := by
    by_cases hmem : Act.tick now ∈ as
    · have hwithin := h (by simp [hs]) now due hmem (fun act hact => horder.le_last hact) hdue hle
      have hsame : s.controller.delay = s.controller.timer.delay := rfl
      rw [hsame]
      apply Nat.le_of_add_le_add_left
      calc
        now + ticksAt now as * s.controller.timer.delay.total ≤ due + Interval.tolerance := hwithin
        _ ≤ now + Interval.tolerance := Nat.add_le_add_right hle _
    · rw [ticksAt_eq_zero hmem, Nat.zero_mul]
      exact Nat.zero_le _
  refine ⟨hfits, ?_⟩
  intro hlong hmem
  have hone : 1 * s.controller.delay.total ≤ ticksAt now as * s.controller.delay.total :=
    Nat.mul_le_mul_right _ (ticksAt_pos hmem)
  omega

/-- **Missed ticks are made up for within the tolerance only.** In a run on a clock that does not go back, the ticks at one
instant come in number to no more than there are delays in the tolerance, and one; so with a delay that is longer than the
tolerance there is at most one. And a session at rest whose task runs again at `now`, however late that is, takes as many as it
owes: one, if the first is late by more than the tolerance, and else all that were missed. -/
theorem runs_atOnce (hc : Reached past c) (hs : spawn? c = some s) (h : Runs s as es t) (horder : InOrder as) :
    (∀ before now after, as = before ++ .tick now :: after →
      ∃ fs r, Runs s before fs r ∧ r.acts now = [.tick now] ∧ AtOnce before now r.controller.delay) ∧
    ∀ n now, AtEase n t → ∃ k, WakesUp now k t := by
  have hrooted : Rooted s := (Client.sound_spawn hc hs 0).rooted
  refine ⟨?_, fun n now hease => hease.wakesUp (hrooted.leads ⟨_, _, h⟩) now⟩
  intro before now after has
  obtain ⟨fs, r, now', hr, hacts⟩ := h.cut has
  obtain ⟨rfl, hready⟩ := acts_tick_ready hacts
  have halive : r.status = .alive := by simpa [isAlive] using (acts_tick hacts).1
  obtain ⟨past', hreached⟩ := hrooted.leads ⟨_, _, hr⟩ halive
  have hfront : InOrder (before ++ [.tick now]) := by
    rw [has, List.append_cons] at horder
    exact horder.front
  exact ⟨fs, r, hr, hacts, (hr.within hrooted hfront.front).atOnce halive hready hreached hfront⟩

/-- a session with a delay of 1 ms that takes three ticks at 3 ms -/
theorem runs_atOnce_thrice :
    let c : Controller Recital (List Recital) Unit := Controller.ofConfig { stepDelay := .milli } [{}] ()
    let before : List Act := [.dispatch 0 ⟨0, .run⟩, .tick 3000000]
    ∃ (s t : Session Recital (List Recital) Unit) (as : List Act) (es : List Command),
      Reached [] c ∧ spawn? c = some s ∧ Runs s as es t ∧ InOrder as ∧
        as = before ++ .tick 3000000 :: [.tick 3000000] ∧
        (∃ fs r, Runs s before fs r ∧ r.acts 3000000 = [.tick 3000000] ∧ AtOnce before 3000000 r.controller.delay) ∧
        ∀ n now, AtEase n t → ∃ k, WakesUp now k t := by
  intro c before
  let s : Session Recital (List Recital) Unit := { controller := c, capacity := 32, watch := { phase := .idle } }
  have hs : spawn? c = some s := rfl
  have hruns := (((runs_request (s := s) 0 .run rfl).trans (Step.turn _ 3000000).runs).trans (Step.turn _ 3000000).runs).trans
    (Step.turn _ 3000000).runs
  refine ⟨s, _, _, _, .new _ _ _, hs, hruns, by decide +kernel, by decide +kernel, ?_⟩
  obtain ⟨hticks, hwakes⟩ := runs_atOnce (.new _ _ _) hs hruns (by decide +kernel)
  exact ⟨hticks before 3000000 [.tick 3000000] (by decide +kernel), hwakes⟩

/-- **With a delay within the tolerance missed ticks come in a burst.** A session with a delay of 1 ms whose clock jumps by 3 ms
takes three steps at one instant. -/
theorem jump_bursts :
    Delay.ofMillis 1 = .ok .milli ∧
      ∃ s : Session Recital (List Recital) Unit, spawn? (Controller.ofConfig { stepDelay := .milli } [{}] ()) = some s ∧
        let a := ({ session := s } : Client Recital (List Recital) Unit).performAll [.send [{ intent := .run }], .jump 3000000]
        a.clock = 3000000 ∧ a.session.steps = [3000000, 3000000, 3000000] := by
  refine ⟨by decide +kernel, _, rfl, ?_⟩
  decide +kernel

end Session

end StepControl

/-
Waiting for a phase.

As long as a client waits nobody says anything to the session, so only ticks run. A tick runs in `running` only, and either
leaves the session there or takes it to where it is held: waiting for input, stopped or faulted, with the timer off. So the
published phase changes at most once, and no tick runs after that: although a watch keeps the last phase only, none that the
client waits for is missed.

From one tick to a wait:
- `Controller.tick_leads`: where a tick leads.
- `Session.Step.tick_watch`: a tick publishes nothing, or that the session left `running` (`Session.Left`).
- `Session.Runs.ticks_watch`: so what is published changes at most once as long as only ticks run. The induction is on the
  run; no tick runs where the session is held.
- `Session.Quiet.works`: at one instant a task takes the ticks that are due, and is woken later.
- `Session.Quiet.runInstants_eq`: a wait is a sleep that ends early; nothing happens after it that a sleep until the limit
  would not have come to.

Results:
- `Session.waitFor_answered`: what a wait comes to, by what becomes of the session when it is left alone until the limit
  (`Session.LeftAlone`, `Session.Awaited`).
- `Session.waitFor_answered_asked`: a wait for a request for input.

Premises: nothing is on its way to the task when the wait begins. The interpreter may break down, delay and limit are
arbitrary, and nothing is said of the instants at which ticks come.
-/
import StepControl.Proofs.CatchingUp
import StepControl.Proofs.Reporting

namespace StepControl

open StepControl.Action

/-- a step of a running session leaves it running or takes it to where it is held -/
theorem upshot_running (hooks : List Hook) (verdict : Verdict) :
    (upshot .running hooks verdict).phase = .running ∨ (upshot .running hooks verdict).phase.isHeld = true := by
  rcases verdict with _ | _ | _ | _
  case proceed =>
    cases hr : StepBuffer.firstRequest hooks with
    | some cell => exact Or.inr (by simp [upshot, hr, Phase.isHeld])
    | none => exact Or.inl (by simp [upshot, hr])
  all_goals exact Or.inr rfl

variable {I L P : Type} [Interpreter I] [Loader L I] [Presenter P] {now limit : Instant}

omit [Loader L I] in
/-- **Where a tick leads** from `running`. -/
theorem Controller.tick_leads {c : Controller I L P} (h : Controller.Steady c) (hp : c.phase = .running) :
    Yields (Controller.tick now : Drive I L P (Option Outcome)) c fun _ d _ =>
      d.phase = .running ∨ d.phase.isHeld = true := by
  rw [yields_congr (Controller.tick_running hp), yields_map]
  rcases Controller.executeStep_cases now h (by rw [hp]; rfl) with ⟨inst, hooks, verdict, machine, hl, hn⟩ | hbroken
  · refine ((Controller.gives_executeStep_reported h (Or.inl hp) hl hn).imp ?_).yields
    intro outcome d j hreported
    have hphase : d.phase = (upshot .running hooks verdict).phase := by
      rw [hreported.left, ← hp]
      rfl
    rw [hphase]
    exact upshot_running hooks verdict
  · exact yields_of_none hbroken

namespace Session

open Controller (Reached)

variable {c : Controller I L P} {s s₀ t u : Session I L P} {past : List Applied} {as : List Act} {es : List Command}
  {target : Phase}

/-! ## What is published -/

/-- what is published is the phase of the controller, as long as the task did not break down, and never that of a first
step -/
structure Watched (s : Session I L P) : Prop where
  current : s.status ≠ .crashed → Current s
  whole : s.watch.phase ≠ .steppingOnce

theorem Step.watched (hstep : Step s as es t) (h : Watched s) : Watched t := by
  cases hstep.kinds with
  | rests hrests =>
    refine ⟨fun ht => hrests.current (h.current (mt hstep.crashed ht)), ?_⟩
    rw [hrests.watch]
    exact h.whole
  | completed hdone =>
    have hcurrent := hdone.current (h.current (by rw [hdone.status.1]; decide))
    refine ⟨fun _ => hcurrent, ?_⟩
    rw [hcurrent.published]
    exact hcurrent.whole
  | broke hbroke =>
    refine ⟨fun ht => absurd hbroke.status.2 ht, ?_⟩
    rw [hbroke.watch]
    exact h.whole

theorem Runs.watched (hrun : Runs s as es t) (h : Watched s) : Watched t := by
  induction hrun with
  | refl => exact h
  | snoc _ last ih => exact last.watched ih

theorem watched_spawn (hc : Reached past c) (hs : spawn? c = some s) : Watched s := by
  have hcurrent := current_spawn hc hs
  refine ⟨fun _ => hcurrent, ?_⟩
  rw [hcurrent.published]
  exact hcurrent.whole

/-! ## Ticks and what is published -/

/-- the session left `running` for where it is held, and that was published once -/
structure Left (s t : Session I L P) : Prop where
  from_running : s.watch.phase = .running
  published : t.watch = ⟨t.controller.phase, s.watch.version + 1⟩
  held : t.watch.phase.isHeld = true

/-- a tick runs in `running` only; it publishes nothing, or that the session left it -/
theorem Step.tick_watch {moment : Instant} (hstep : Step s [.tick moment] es t) (h : Watched s) :
    s.watch.phase = .running ∧ (t.watch = s.watch ∨ Left s t) := by
  rcases hstep.act_cases with hnone | ⟨now, command, rest, hact, -⟩ | ⟨now, hact, hs, hready, -⟩
  · cases hnone
  · cases hact
  · obtain rfl : moment = now := by simpa using hact
    have hcurrent := h.current (by rw [hs]; decide)
    have hp : s.controller.phase = .running := hcurrent.steady.running_of_ready hready
    have hrunning : s.watch.phase = .running := hcurrent.published.trans hp
    refine ⟨hrunning, ?_⟩
    cases hstep.kinds with
    | broke hbroke => exact Or.inl hbroke.watch
    | @completed _ reply _ hdone =>
      have hvalue := hdone.value
      have hnext : t.controller.phase = .running ∨ t.controller.phase.isHeld = true := by
        rw [hdone.controller]
        rw [applying_tick] at hvalue ⊢
        obtain ⟨outcome, houtcome, -⟩ := Option.map_eq_some_iff.1 hvalue
        exact Controller.tick_leads (hcurrent.steady.poll moment) hp outcome houtcome
      have hwatch := hdone.watch
      rcases hnext with hstays | hheld
      · left
        rw [hwatch, Watch.publish, if_pos (hstays.trans hrunning.symm)]
      · have hchanged : t.controller.phase ≠ s.watch.phase := by
          rw [hrunning]
          exact Phase.ne_running_of_isHeld hheld
        have hpublished : t.watch = ⟨t.controller.phase, s.watch.version + 1⟩ := by
          rw [hwatch, Watch.publish, if_neg hchanged]
        exact Or.inr ⟨hrunning, hpublished, by rw [hpublished]; exact hheld⟩

/-- **What is published changes at most once as long as only ticks run.** -/
theorem Runs.ticks_watch (hrun : Runs s as es t) (hticks : ∀ act ∈ as, ∃ moment, act = .tick moment) (h : Watched s) :
    t.watch = s.watch ∨ (as ≠ [] ∧ Left s t) := by
  induction hrun with
  | refl => exact Or.inl rfl
  | @snoc as as' es es' t u front last ih =>
    have hfront := ih fun act hact => hticks act (List.mem_append_left _ hact)
    rcases last.acts_eq with rfl | ⟨now, act, rfl, -⟩
    · have hrests : Rests t u := by
        cases last.kinds with
        | rests hrests => exact hrests
      rw [hrests.watch, List.append_nil]
      refine hfront.imp id fun hleft => ⟨hleft.1, hleft.2.from_running, ?_, ?_⟩
      · rw [hrests.watch, hrests.phase_eq]
        exact hleft.2.published
      · rw [hrests.watch]
        exact hleft.2.held
    · obtain ⟨moment, rfl⟩ := hticks act (by simp)
      obtain ⟨hrunning, hlast⟩ := last.tick_watch (front.watched h)
      -- no tick runs where the session is held, so nothing was published before
      have hsame : t.watch = s.watch := by
        rcases hfront with hsame | ⟨-, hleft⟩
        · exact hsame
        · exact absurd hrunning (Phase.ne_running_of_isHeld hleft.held)
      refine hlast.imp (fun hnone => hnone.trans hsame) fun hleft => ⟨by simp, ?_, ?_, hleft.held⟩
      · rw [← hsame]
        exact hrunning
      · rw [← hsame]
        exact hleft.published

/-! ## Sessions that are left alone -/

/-- nothing is on its way to the task -/
structure Quiet (s : Session I L P) : Prop where
  inbox : s.inbox = []
  waiting : s.waiting = []
  room : 0 < s.capacity
  rooted : Rooted s
  watched : Watched s

theorem Quiet.of_atEase {n : Nat} (h : AtEase n s) (hrooted : Rooted s) (hwatched : Watched s) : Quiet s :=
  ⟨h.inbox, h.waiting, h.room, hrooted, hwatched⟩

/-- a quiet session is at ease, or its task has been told to end -/
theorem Quiet.cases (h : Quiet s) :
    AtEase s.tickets s ∨ s.status = .alive ∧ ∀ now, s.turn now = (false, s.finish now) := by
  by_cases hs : s.status = .alive
  case neg => exact Or.inl ⟨tidy_over hs h.inbox h.waiting h.room rfl, h.inbox, h.waiting⟩
  cases hc : s.cancelled with
  | true => exact Or.inr ⟨hs, turn_cancelled hs hc⟩
  | false =>
    cases ha : s.abandoned with
    | true => exact Or.inr ⟨hs, turn_letGo hs hc h.inbox ha⟩
    | false => exact Or.inl ⟨tidy_alive hs ⟨hc, ha⟩ h.room rfl, h.inbox, h.waiting⟩

/-- what a quiet session does at one instant: its task takes the ticks that are due, and is woken later -/
structure Works (now : Instant) (k : Nat) (s t : Session I L P) : Prop where
  ticks : Runs s (List.replicate k (.tick now)) [] t
  quiet : Quiet t
  later : ∀ due, t.wake? = some due → now < due

/-- a task that has been told to end does so at once -/
theorem Quiet.settle_ends (h : Quiet s) (hends : s.turn now = (false, s.finish now)) :
    s.settle now = s.finish now ∧ (s.settle now).wake? = none := by
  have hsettle : s.settle now = s.finish now := by
    rw [settle_empty h.inbox h.waiting, Session.turns, hends]
  exact ⟨hsettle, by rw [hsettle]; rfl⟩

/-- and applies nothing any more -/
theorem acts_ends (hends : s.turn now = (false, s.finish now)) : s.acts now = [] := by
  have hkinds := (Step.turn s now).kinds
  rw [hends] at hkinds
  generalize s.acts now = as at hkinds ⊢
  cases hkinds with
  | rests => rfl
  | completed hdone => exact absurd hdone.status.2 (by simp [finish, close])
  | broke hbroke => exact absurd hbroke.status.2 (by simp [finish, close])

theorem Quiet.works (h : Quiet s) (now : Instant) : ∃ k, Works now k s (s.settle now) := by
  have hquiet : AtEase s.tickets (s.settle now) → Quiet (s.settle now) := fun hease => by
    obtain ⟨as, es, hrun⟩ := leads_settle now s
    exact .of_atEase hease (h.rooted.leads ⟨as, es, hrun⟩) (hrun.watched h.watched)
  rcases h.cases with hease | ⟨hs, hends⟩
  · obtain ⟨k, hk⟩ := hease.wakesUp h.rooted now
    exact ⟨k, hk.catchesUp.ticks, hquiet (hease.settle now), hk.later⟩
  · obtain ⟨hsettle, hover⟩ := h.settle_ends (hends now)
    have hstep := (Step.turn s now).runs
    rw [acts_ends (hends now), hends now] at hstep
    refine ⟨0, ?_, hquiet (settle_ended h.inbox h.waiting h.room rfl fun _ => hends now), ?_⟩
    · rw [hsettle]
      exact hstep
    · intro due hdue
      rw [hover] at hdue
      cases hdue

theorem Quiet.sleep_wakes (h : Quiet s) (now limit : Instant) :
    s.sleep now limit =
      match (s.settle now).wake? with
      | some due => if due < limit then (s.settle now).sleep due limit else s.settle now
      | none => s.settle now := by
  rcases h.cases with hease | ⟨hs, hends⟩
  · exact hease.sleep_wakes h.rooted now limit
  · obtain ⟨-, hover⟩ := h.settle_ends (hends now)
    rw [sleep, runUntil, runInstants, if_neg Bool.false_ne_true, hover]

/-- the ticks that run where a session is left alone from `now` until `limit`: each is taken before the limit, or at once,
and none that is due before it is left -/
structure Passed (now limit : Instant) (s : Session I L P) (ticks : List Instant) (t : Session I L P) : Prop where
  runs : Runs s (ticks.map .tick) [] t
  moments : ∀ moment ∈ ticks, now ≤ moment ∧ (moment = now ∨ moment < limit)
  done : ∀ due, t.wake? = some due → limit ≤ due

omit [Interpreter I] [Loader L I] [Presenter P] in
theorem mem_replicate_now {k : Nat} :
    ∀ moment ∈ List.replicate k now, now ≤ moment ∧ (moment = now ∨ moment < limit) := by
  intro moment hmem
  obtain rfl := List.eq_of_mem_replicate hmem
  exact ⟨Nat.le_refl _, Or.inl rfl⟩

theorem Works.ticks_watch {k : Nat} (h : Works now k s t) (hw : Watched s) : t.watch = s.watch ∨ (k ≠ 0 ∧ Left s t) := by
  have hticks : ∀ act ∈ List.replicate k (Act.tick now), ∃ moment, act = .tick moment := by
    intro act hact
    exact ⟨now, List.eq_of_mem_replicate hact⟩
  rcases h.ticks.ticks_watch hticks hw with hsame | ⟨hsome, hleft⟩
  · exact Or.inl hsame
  · exact Or.inr ⟨by simpa using hsome, hleft⟩

theorem Works.passed {k : Nat} (h : Works now k s t) (hdone : ∀ due, t.wake? = some due → limit ≤ due) :
    Passed now limit s (List.replicate k now) t where
  runs := by
    rw [List.map_replicate]
    exact h.ticks
  moments := mem_replicate_now
  done := hdone

theorem Works.wake {k : Nat} {ticks : List Instant} {due : Instant} (h : Works now k s t) (hlater : now < due)
    (hbefore : due < limit) (hrest : Passed due limit t ticks u) :
    Passed now limit s (List.replicate k now ++ ticks) u where
  runs := by
    rw [List.map_append, List.map_replicate]
    exact h.ticks.trans hrest.runs
  moments := by
    intro moment hmem
    rcases List.mem_append.1 hmem with hfirst | hsecond
    · exact mem_replicate_now moment hfirst
    · obtain ⟨hfrom, hwhen⟩ := hrest.moments moment hsecond
      refine ⟨Nat.le_trans (Nat.le_of_lt hlater) hfrom, Or.inr ?_⟩
      rcases hwhen with rfl | hlimit
      · exact hbefore
      · exact hlimit
  done := hrest.done

/-! ## The wait -/

/-- where the target has come to be published, or the task is over, nothing is to come -/
theorem Quiet.wake?_eq_none {k : Nat} (h : Quiet s) (hworks : Works now k s t) (hne : s.watch.phase ≠ target)
    (hstop : t.watch.phase = target ∨ t.status ≠ .alive) : t.wake? = none := by
  refine hworks.quiet.rooted.wake?_eq_none ?_
  rintro ⟨halive, hrunning⟩
  have htarget : t.watch.phase = target := by
    rcases hstop with htarget | hover
    · exact htarget
    · exact absurd halive hover
  rcases hworks.ticks_watch h.watched with hsame | ⟨-, hleft⟩
  · exact hne (by rw [← hsame, htarget])
  · have hpublished := (hworks.quiet.watched.current (by rw [halive]; decide)).published
    exact Phase.ne_running_of_isHeld hleft.held (hpublished.trans hrunning)

/-- the condition on which a wait for a phase ends -/
def isOver (target : Phase) (s : Session I L P) : Bool := s.watch.phase = target || !s.isAlive

/-- the end of a wait at `moment`, which leaves `t`: the last tick was taken at this moment, where it led to the target; and
where nothing ended the wait it is the limit -/
structure EndsAt (target : Phase) (limit : Instant) (ticks : List Instant) (moment : Instant) (t : Session I L P) : Prop where
  reached : t.watch.phase = target → ticks.getLast? = some moment
  expired : t.watch.phase ≠ target → t.status = .alive → moment = limit

omit [Interpreter I] [Loader L I] [Presenter P] in
/-- a wait that has missed its target ends at the limit -/
theorem EndsAt.of_missed {ticks : List Instant} (hmissed : t.watch.phase ≠ target) : EndsAt target limit ticks limit t where
  reached := fun htarget => absurd htarget hmissed
  expired := fun _ _ => rfl

omit [Interpreter I] [Loader L I] [Presenter P] in
theorem EndsAt.after {ticks : List Instant} {moment : Instant} (front : List Instant)
    (h : EndsAt target limit ticks moment t) : EndsAt target limit (front ++ ticks) moment t where
  reached := by
    intro htarget
    rw [List.getLast?_append, h.reached htarget]
    rfl
  expired := h.expired

/-- a wait that ends at its first look -/
theorem Quiet.endsAt_once {k : Nat} (h : Quiet s) (hworks : Works now k s t) (hne : s.watch.phase ≠ target)
    (hover : t.watch.phase = target ∨ t.status ≠ .alive) : EndsAt target limit (List.replicate k now) now t where
  reached := by
    intro htarget
    rcases hworks.ticks_watch h.watched with hsame | ⟨hsome, -⟩
    · exact absurd (by rw [← hsame, htarget]) hne
    · simp [List.getLast?_replicate, hsome]
  expired := fun hmissed halive => absurd halive (hover.resolve_left hmissed)

/-- **A wait is a sleep that ends early**: nothing happens after it that a sleep until the limit would not have come to. -/
theorem Quiet.runInstants_eq (h : Quiet s) (hne : s.watch.phase ≠ target) {fuel : Nat} (hfuel : limit - now < fuel) :
    ∃ ticks moment, s.runInstants (isOver target) limit fuel now = (moment, s.sleep now limit) ∧
      Passed now limit s ticks (s.sleep now limit) ∧ EndsAt target limit ticks moment (s.sleep now limit) := by
  induction fuel generalizing now s with
  | zero => exact absurd hfuel (Nat.not_lt_zero _)
  | succ fuel ih =>
    obtain ⟨k, hworks⟩ := h.works now
    have hsleep := h.sleep_wakes now limit
    rw [Session.runInstants]
    generalize s.settle now = t at hworks hsleep ⊢
    by_cases hstop : isOver target t = true
    case pos =>
      have hover : t.watch.phase = target ∨ t.status ≠ .alive := by simpa [isOver, isAlive] using hstop
      have hwake := h.wake?_eq_none hworks hne hover
      rw [hwake] at hsleep
      dsimp only at hsleep
      rw [if_pos hstop, hsleep]
      exact ⟨_, now, rfl, hworks.passed (by simp [hwake]), h.endsAt_once hworks hne hover⟩
    case neg =>
      have hgoes : t.watch.phase ≠ target ∧ t.status = .alive := by simpa [isOver, isAlive] using hstop
      rw [if_neg hstop]
      cases hwake : t.wake? with
      | none =>
        rw [hwake] at hsleep
        dsimp only at hsleep ⊢
        rw [hsleep]
        exact ⟨_, limit, rfl, hworks.passed (by simp [hwake]), .of_missed hgoes.1⟩
      | some due =>
        rw [hwake] at hsleep
        dsimp only at hsleep ⊢
        have hlater := hworks.later due hwake
        split at hsleep
        case isTrue hbefore =>
          have hless : limit - due < limit - now := Nat.sub_lt_sub_left (Nat.lt_trans hlater hbefore) hlater
          obtain ⟨ticks, moment, hruns, hpassed, hends⟩ :=
            ih hworks.quiet hgoes.1 (Nat.lt_of_lt_of_le hless (Nat.le_of_lt_succ hfuel))
          rw [if_pos hbefore, hruns, hsleep]
          exact ⟨_, moment, rfl, hworks.wake hlater hbefore hpassed, hends.after _⟩
        case isFalse hafter =>
          rw [if_neg hafter, hsleep]
          refine ⟨_, limit, rfl, hworks.passed ?_, .of_missed hgoes.1⟩
          intro due' hdue'
          obtain rfl : due = due' := Option.some.inj (hwake.symm.trans hdue')
          exact Nat.le_of_not_lt hafter

/-- a session that is not talked to, from `now` until `limit`: only ticks run, and before each of them it runs as it did at
the beginning; so what is published changes once at most, and no tick comes after that -/
structure LeftAlone (now limit : Instant) (s : Session I L P) (ticks : List Instant) (t : Session I L P) : Prop
    extends Passed now limit s ticks t where
  before : ∀ front moment back, ticks = front ++ moment :: back →
    ∃ fs r, Runs s (front.map .tick) fs r ∧ r.acts moment = [.tick moment] ∧ r.watch = s.watch ∧ s.watch.phase = .running
  published : t.watch = s.watch ∨ (ticks ≠ [] ∧ Left s t)

theorem Passed.leftAlone {ticks : List Instant} (h : Passed now limit s ticks t) (hw : Watched s) :
    LeftAlone now limit s ticks t where
  toPassed := h
  before := by
    rintro front moment back rfl
    have hruns := h.runs
    rw [List.map_append, List.map_cons] at hruns
    obtain ⟨fs, gs, r, at', -, hr, hacts, hrest⟩ := hruns.split rfl
    obtain ⟨rfl, -⟩ := acts_tick_ready hacts
    have hstep := Step.turn r moment
    rw [hacts] at hstep
    obtain ⟨hrunning, -⟩ := hstep.tick_watch (hr.watched hw)
    have hsame : r.watch = s.watch := by
      rcases hr.ticks_watch (by simp) hw with hsame | ⟨-, hleft⟩
      · exact hsame
      · exact absurd hrunning (Phase.ne_running_of_isHeld hleft.held)
    exact ⟨fs, r, hr, hacts, hsame, hsame ▸ hrunning⟩
  published := by
    rcases h.runs.ticks_watch (by simp) hw with hsame | ⟨hsome, hleft⟩
    · exact Or.inl hsame
    · exact Or.inr ⟨by simpa using hsome, hleft⟩

/-- what a wait comes to that does not find its target published, where the session came to `t` by the limit: it is reached
where the session left `running` for it in time, closed where the task is over without that, and else the time is up -/
structure Awaited (target : Phase) (limit : Instant) (ticks : List Instant) (t : Session I L P)
    (w : Waited × Instant × Session I L P) : Prop where
  left : w.2.2 = { t with seen := t.watch.version }
  reached : w.1 = .reached ↔ t.watch.phase = target
  closed : w.1 = .closed ↔ t.watch.phase ≠ target ∧ t.status ≠ .alive
  timedOut : w.1 = .timedOut ↔ t.watch.phase ≠ target ∧ t.status = .alive
  /-- the wait ends with the tick that leads to the target -/
  prompt : w.1 = .reached → ticks.getLast? = some w.2.1
  expired : w.1 = .timedOut → w.2.1 = limit

omit [Interpreter I] [Loader L I] [Presenter P] in
/-- the end of a wait and the answer to it -/
theorem EndsAt.awaited {ticks : List Instant} {moment : Instant} {answer : Waited} (h : EndsAt target limit ticks moment t)
    (hanswer : answer = if t.watch.phase = target then .reached else if t.isAlive then .timedOut else .closed) :
    Awaited target limit ticks t (answer, moment, { t with seen := t.watch.version }) := by
  have halive : t.isAlive = true ↔ t.status = .alive := by simp [isAlive]
  by_cases htarget : t.watch.phase = target
  case pos =>
    obtain rfl : answer = .reached := by rw [hanswer, if_pos htarget]
    exact {
      left := rfl
      reached := by simp [htarget]
      closed := by simp [htarget]
      timedOut := by simp [htarget]
      prompt := fun _ => h.reached htarget
      expired := by simp }
  case neg =>
    rw [if_neg htarget] at hanswer
    by_cases hend : t.status = .alive
    case pos =>
      obtain rfl : answer = .timedOut := by rw [hanswer, if_pos (halive.2 hend)]
      exact {
        left := rfl
        reached := by simp [htarget]
        closed := by simp [hend]
        timedOut := by simp [htarget, hend]
        prompt := by simp
        expired := fun _ => h.expired htarget hend }
    case neg =>
      obtain rfl : answer = .closed := by rw [hanswer, if_neg (mt halive.1 hend)]
      exact {
        left := rfl
        reached := by simp [htarget]
        closed := by simp [htarget, hend]
        timedOut := by simp [hend]
        prompt := by simp
        expired := by simp }

theorem Quiet.awaited (h : Quiet s) (hne : s.watch.phase ≠ target) (now limit : Instant) :
    ∃ ticks, Passed now limit s ticks (s.sleep now limit) ∧
      Awaited target limit ticks (s.sleep now limit) (s.waitFor target now limit) := by
  by_cases hs : s.status = .alive
  case neg =>
    have hover : s.isAlive = false := by simpa [isAlive] using hs
    have hsettle : s.settle now = s := by rw [settle_empty h.inbox h.waiting, turns_over hs]
    have hwake : s.wake? = none := h.rooted.wake?_eq_none fun hlive => hs hlive.1
    have hsleep := h.sleep_wakes now limit
    rw [hsettle, hwake] at hsleep
    dsimp only at hsleep
    have hends : EndsAt target limit [] now s := ⟨fun htarget => absurd htarget hne, fun _ halive => absurd halive hs⟩
    rw [waitFor, if_neg hne, if_pos hover, hsleep]
    refine ⟨[], ⟨.refl, by simp, by simp [hwake]⟩, hends.awaited ?_⟩
    simp [hne, hover]
  case pos =>
    have halive : s.isAlive = true := by simpa [isAlive] using hs
    obtain ⟨ticks, moment, hruns, hpassed, hends⟩ := h.runInstants_eq hne (Nat.lt_succ_self (limit - now))
    have hwait : s.runUntil (fun s => s.watch.phase = target || !s.isAlive) now limit = (moment, s.sleep now limit) :=
      hruns
    rw [waitFor, if_neg hne, if_neg (by simp [halive]), hwait]
    exact ⟨ticks, hpassed, hends.awaited rfl⟩

/-- **A wait never misses its target.** A target that is published already is reached at once, whatever became of the task.
Any other is reached where the session left `running` for it before the limit, with the tick that led there; the session is
closed to the client where the task is over without that, and else the time is up. What is published changes once at most
meanwhile, so the phase of a first step is never reached, and no other that the session is not held in. -/
theorem waitFor_answered (hc : Reached past c) (hs : spawn? c = some s₀) (hrun : Runs s₀ as es s) (hi : s.inbox = [])
    (hw : s.waiting = []) (target : Phase) (now limit : Instant) :
    (s.watch.phase = target → s.waitFor target now limit = (.reached, now, { s with seen := s.watch.version })) ∧
      (s.watch.phase ≠ target → ∃ ticks, LeftAlone now limit s ticks (s.sleep now limit) ∧
        Awaited target limit ticks (s.sleep now limit) (s.waitFor target now limit)) ∧
      ((s.waitFor target now limit).1 = .reached →
        target ≠ .steppingOnce ∧ (target = s.watch.phase ∨ target.isHeld = true)) := by
  have hsound := Client.sound_spawn hc hs 0
  have hwatched : Watched s := hrun.watched (watched_spawn hc hs)
  have hroom : 0 < s.capacity := by
    rw [hrun.capacity_eq]
    exact (hsound.ease.room :)
  have hquiet : Quiet s := ⟨hi, hw, hroom, hsound.rooted.leads ⟨_, _, hrun⟩, hwatched⟩
  refine ⟨fun hthere => by rw [waitFor, if_pos hthere], ?_, ?_⟩
  · intro hne
    obtain ⟨ticks, hpassed, hawaited⟩ := hquiet.awaited hne now limit
    exact ⟨ticks, hpassed.leftAlone hwatched, hawaited⟩
  · intro hreached
    by_cases hne : s.watch.phase = target
    · exact ⟨hne ▸ hwatched.whole, Or.inl hne.symm⟩
    · obtain ⟨ticks, hpassed, hawaited⟩ := hquiet.awaited hne now limit
      have htarget := hawaited.reached.1 hreached
      rcases (hpassed.leftAlone hwatched).published with hsame | ⟨-, hleft⟩
      · exact absurd (by rw [← hsame, htarget]) hne
      · have hheld : target.isHeld = true := htarget ▸ hleft.held
        refine ⟨?_, Or.inr hheld⟩
        rintro rfl
        exact absurd hheld (by decide)

/-- a running session that asks for input at its first tick: a client that waits for that learns of it then, and one that waits
for the end of the session is told that the time is up -/
theorem waitFor_answered_asked :
    ∃ (past : List Applied) (c : Controller Player Repertoire Unit) (s : Session Player Repertoire Unit),
      Reached past c ∧ spawn? c = some s ∧ s.watch.phase = .running ∧ s.inbox = [] ∧ s.waiting = [] ∧
        (∃ ticks, LeftAlone 0 1000000000 s ticks (s.sleep 0 1000000000) ∧
          Awaited .awaitingInput 1000000000 ticks (s.sleep 0 1000000000) (s.waitFor .awaitingInput 0 1000000000)) ∧
        (s.waitFor .awaitingInput 0 1000000000).1 = .reached ∧ (s.waitFor .stopped 0 1000000000).1 = .timedOut := by
  have hstarted := (Reached.new (P := Unit) {} Controller.asker ()).perform 0 .run rfl
  refine ⟨_, _, _, hstarted, rfl, rfl, rfl, rfl, ?_, by decide +kernel, by decide +kernel⟩
  exact (waitFor_answered hstarted rfl .refl rfl rfl .awaitingInput 0 1000000000).2.1 (by decide)

end Session

end StepControl

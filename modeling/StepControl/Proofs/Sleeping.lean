/-
Time passes in parts.

A task that settled is woken at later instants only. So a stretch of time is what the task does at the present instant, and
then the stretch from the instant at which it is woken on; between these instants it has nothing to do, and letting it run
there leaves it in step.

- `AtEase.whole_lt`, `AtEase.wake_lt`: what a task that settled waits for is still to come, and comes in a later
  millisecond.
- `AtEase.runInstants_fuel`: there are no more instants to run at than lie in the stretch, so any fuel beyond that is as
  good.
- `AtEase.passes_runInstants`, `AtEase.passes_waitFor`: as time passes the task takes no turn after the instant at which it
  is left, and nobody says anything to it (`Passes`).
- `Paired.settle_idle`: a task that has nothing to do is left in step with itself when it is let run.

Results:
- `AtEase.sleep_wakes`: a stretch of time is the present instant and a stretch from the next due time on. This is the
  equation by which all else about stretches is proved, by induction on their length.
- `AtEase.sleep_idle`: where the task is not woken in a part of it, it makes no difference to let it run at the end of this part.
- `AtEase.sleep_parts`: a session that sleeps for a while, and then goes on sleeping, is in step with one that sleeps all
  the while.

Premises: the session is at ease, and its controller was reached as long as the task is alive (`Rooted`). For the last
result it is in step with itself, which every new session is. The interpreter may break down.
-/
import StepControl.Proofs.Cadence

namespace StepControl.Session

variable {I L P : Type} [Interpreter I] [Loader L I] [Presenter P] {build : String → I} {s : Session I L P} {n : Nat}
  {now later limit due : Instant}

omit [Interpreter I] [Loader L I] [Presenter P] in
theorem due?_alive (hs : s.status = .alive) : s.due? = s.controller.timer.due? := if_pos (by simpa [isAlive] using hs)

omit [Interpreter I] [Loader L I] [Presenter P] in
theorem due?_over (hs : s.status ≠ .alive) : s.due? = none := if_neg (by simpa [isAlive] using hs)

/-- a task that settled has no tick to take yet -/
theorem AtEase.whole_lt (h : AtEase n s) (hrooted : Rooted s) (hdue : (s.settle now).due? = some due) : now.whole < due := by
  by_cases hs : (s.settle now).status = .alive
  · rw [due?_alive hs] at hdue
    exact (h.calm_settle hrooted hs).lt_due hdue
  · rw [due?_over hs] at hdue
    cases hdue

/-- a task that settled is woken later -/
theorem AtEase.wake_lt (h : AtEase n s) (hrooted : Rooted s) (hwake : (s.settle now).wake? = some due) : now < due := by
  obtain ⟨moment, hdue, rfl⟩ := Option.map_eq_some_iff.1 hwake
  exact Instant.lt_rounded_iff.2 (h.whole_lt hrooted hdue)

/-- the task runs at no more instants than there are -/
theorem AtEase.runInstants_fuel (h : AtEase n s) (hrooted : Rooted s) (stop : Session I L P → Bool) {fuel fuel' : Nat}
    (hfuel : limit - now < fuel) (hfuel' : limit - now < fuel') :
    s.runInstants stop limit fuel now = s.runInstants stop limit fuel' now := by
  induction fuel generalizing fuel' now s with
  | zero => exact absurd hfuel (Nat.not_lt_zero _)
  | succ fuel ih =>
    cases fuel' with
    | zero => exact absurd hfuel' (Nat.not_lt_zero _)
    | succ fuel' =>
      unfold Session.runInstants
      dsimp only
      split
      · rfl
      · cases hwake : (s.settle now).wake? with
        | none => rfl
        | some due =>
          dsimp only
          split
          case isTrue hbefore =>
            have hlater : now < due := h.wake_lt hrooted hwake
            have hless : limit - due < limit - now := Nat.sub_lt_sub_left (Nat.lt_trans hlater hbefore) hlater
            exact ih (h.settle now) (hrooted.leads (leads_settle now s)) (Nat.lt_of_lt_of_le hless (Nat.le_of_lt_succ hfuel))
              (Nat.lt_of_lt_of_le hless (Nat.le_of_lt_succ hfuel'))
          case isFalse => rfl

/-- as time passes the task takes no turn after the instant at which it is left -/
theorem AtEase.passes_runInstants (h : AtEase n s) (hrooted : Rooted s) (stop : Session I L P → Bool) (hlimit : now ≤ limit)
    (fuel : Nat) :
    now ≤ (s.runInstants stop limit fuel now).1 ∧
      Passes (s.runInstants stop limit fuel now).1 s (s.runInstants stop limit fuel now).2 := by
  induction fuel generalizing now s with
  | zero => exact ⟨Nat.le_refl now, .refl now s⟩
  | succ fuel ih =>
    have hsettle := passes_settle now s
    unfold Session.runInstants
    dsimp only
    split
    · exact ⟨Nat.le_refl now, hsettle⟩
    · split
      case h_1 due hwake =>
        split
        case isTrue hbefore =>
          have hlater : now < due := h.wake_lt hrooted hwake
          obtain ⟨hle, hrest⟩ := ih (h.settle now) (hrooted.leads (leads_settle now s)) (Nat.le_of_lt hbefore)
          have hnow := Nat.le_trans (Nat.le_of_lt hlater) hle
          exact ⟨hnow, (hsettle.mono hnow).trans hrest⟩
        case isFalse => exact ⟨hlimit, hsettle.mono hlimit⟩
      case h_2 => exact ⟨hlimit, hsettle.mono hlimit⟩

theorem AtEase.passes_waitFor (h : AtEase n s) (hrooted : Rooted s) (target : Phase) (hlimit : now ≤ limit) :
    now ≤ (s.waitFor target now limit).2.1 ∧ Passes (s.waitFor target now limit).2.1 s (s.waitFor target now limit).2.2 := by
  unfold Session.waitFor
  dsimp only
  split
  · exact ⟨Nat.le_refl now, passes_look now s⟩
  · split
    · exact ⟨Nat.le_refl now, passes_look now s⟩
    · obtain ⟨hle, hpasses⟩ := h.passes_runInstants hrooted _ hlimit _
      exact ⟨hle, hpasses.trans (passes_look _ _)⟩

/-- **A stretch of time is the present instant and a stretch from the next due time on.** -/
theorem AtEase.sleep_wakes (h : AtEase n s) (hrooted : Rooted s) (now limit : Instant) :
    s.sleep now limit =
      match (s.settle now).wake? with
      | some due => if due < limit then (s.settle now).sleep due limit else s.settle now
      | none => s.settle now := by
  unfold sleep runUntil
  rw [Session.runInstants, if_neg Bool.false_ne_true]
  cases hwake : (s.settle now).wake? with
  | none => rfl
  | some due =>
    dsimp only
    split
    case isTrue hbefore =>
      have hlater : now < due := h.wake_lt hrooted hwake
      have hless : limit - due < limit - now := Nat.sub_lt_sub_left (Nat.lt_trans hlater hbefore) hlater
      exact congrArg Prod.snd
        ((h.settle now).runInstants_fuel (hrooted.leads (leads_settle now s)) _ hless (Nat.lt_succ_self _))
    case isFalse => rfl

/-- a task that has nothing to do is left in step when it is let run -/
theorem Paired.settle_idle (h : Paired build some s s) (hease : AtEase n s)
    (hcalm : s.status = .alive → s.controller.Calm now) : Paired build some (s.settle now) s := by
  rw [settle_empty hease.inbox hease.waiting]
  by_cases hs : s.status = .alive
  · obtain ⟨hc, ha⟩ := hease.going hs
    rw [Session.turns, turn_calm hs hc hease.inbox ha (hcalm hs)]
    exact { h with controller := fun _ => (h.inStep hs).asked (hcalm hs).1 }
  · rw [turns_over hs]
    exact h

/-- where a task is not woken before the time is over, it has only the present instant -/
theorem AtEase.sleep_short (h : AtEase n s) (hrooted : Rooted s)
    (hidle : ∀ due, (s.settle now).wake? = some due → limit ≤ due) : s.sleep now limit = s.settle now := by
  rw [h.sleep_wakes hrooted now limit]
  cases hwake : (s.settle now).wake? with
  | none => rfl
  | some due => exact if_neg (Nat.not_lt_of_le (hidle due hwake))

/-- where it is woken after `later` only, it can be let run at that instant as well -/
theorem AtEase.sleep_idle (h : AtEase n s) (hrooted : Rooted s) (hself : Paired build some s s)
    (hidle : ∀ due, (s.settle now).wake? = some due → later < due) (limit : Instant) :
    Paired build some ((s.settle now).sleep later limit) (s.sleep now limit) := by
  have hnext : Rooted (s.settle now) := hrooted.leads (leads_settle now s)
  have hcalm : (s.settle now).status = .alive → (s.settle now).controller.Calm later := by
    intro hs
    refine (h.calm_settle hrooted hs).until ?_
    intro due hdue
    have hwake : (s.settle now).wake? = some (Instant.rounded due) := by
      rw [wake?, due?_alive hs, hdue]
      rfl
    exact Instant.lt_rounded_iff.1 (hidle _ hwake)
  have hrun := (hself.settle now).settle_idle (h.settle now) hcalm
  rw [h.sleep_wakes hrooted now limit, (h.settle now).sleep_wakes hnext later limit, hrun.wake?_eq]
  cases (s.settle now).wake? with
  | none => exact hrun
  | some due =>
    dsimp only
    split
    · exact hrun.sleep due limit
    · exact hrun

/-- **Time passes in parts**: a session that sleeps, and then goes on sleeping, is in step with one that sleeps all the
while. -/
theorem AtEase.sleep_parts (h : AtEase n s) (hrooted : Rooted s) (hself : Paired build some s s) (hbefore : now ≤ later)
    (hlimit : later < limit) : Paired build some ((s.sleep now later).sleep later limit) (s.sleep now limit) := by
  -- on the first part: as long as the task is woken in it, what is left of it is shorter then
  induction hk : later - now using Nat.strongRecOn generalizing now s with
  | _ k ih =>
    by_cases hfirst : ∃ due, (s.settle now).wake? = some due ∧ due ≤ later
    case pos =>
      have hsettled := h.settle now
      have hnext : Rooted (s.settle now) := hrooted.leads (leads_settle now s)
      have hsame : Paired build some (s.settle now) (s.settle now) := hself.settle now
      obtain ⟨due, hwake, hdue⟩ := hfirst
      have hlater : now < due := h.wake_lt hrooted hwake
      have hless : later - due < later - now := Nat.sub_lt_sub_left (Nat.lt_of_lt_of_le hlater hdue) hlater
      rw [h.sleep_wakes hrooted now later, h.sleep_wakes hrooted now limit, hwake]
      dsimp only
      rw [if_pos (Nat.lt_of_le_of_lt hdue hlimit)]
      by_cases hat : due = later
      · -- the first part ends right before this instant
        rw [if_neg (Nat.not_lt_of_le (Nat.le_of_eq hat.symm)), hat]
        exact hsame.sleep later limit
      · rw [if_pos (Nat.lt_of_le_of_ne hdue hat)]
        exact ih (later - due) (hk ▸ hless) hsettled hnext hsame hdue rfl
    case neg =>
      have hidle : ∀ due, (s.settle now).wake? = some due → later < due := by
        intro due hwake
        exact Nat.lt_of_not_le fun hle => hfirst ⟨due, hwake, hle⟩
      rw [h.sleep_short hrooted fun due hwake => Nat.le_of_lt (hidle due hwake)]
      exact h.sleep_idle hrooted hself hidle limit

end StepControl.Session

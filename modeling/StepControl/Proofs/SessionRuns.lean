/-
Runs of a session, with clients, clock and task in any order.

A step of a run (`Step`) is one thing that a client or the task does: a sender posts an intent, a sender that waits finds
room in the inbox, the task takes a turn at some instant, the session is cancelled, the last handle goes away. A run
(`Runs`) is any number of steps in any order. It records what the task had the controller do (`Act`), and the commands that
entered the inbox, both in order.

- `turn_turned`: the ends that a turn can have, by which what a turn keeps is proved in the rest of the theory.
- `Runs.split`: a run can be cut at any act into what was until then, the turn that applied the act, and what came after.
- `RunsBy`: the runs in which the task takes no turn after a given instant. Every run is one, for some instant (`Runs.by`).
- `Runs.cancelled`, `Runs.unreachable`: a cancelled session only ends, and so does one that nobody can reach any more.
- `leads_shutdown`, `leads_abandon`, `leads_settle`, `leads_sleep`, `leads_waitFor`: the ways in which a session is driven are
  such runs. In all but the first two it is left to itself (`Passes`), and nobody says anything to it.

Nothing is assumed of the order of the instants, of the clients, or of the interpreter.
-/
import Mathlib.Data.List.Basic
import StepControl.Session.Clock

namespace StepControl

/-- something that the task has its controller do -/
inductive Act where
  | dispatch (now : Instant) (command : Command)
  | tick (now : Instant)
  deriving DecidableEq

def Act.command? : Act → Option Command
  | .dispatch _ command => some command
  | .tick _ => none

def dispatched (acts : List Act) : List Command := acts.filterMap Act.command?

@[simp] theorem dispatched_append (acts acts' : List Act) :
    dispatched (acts ++ acts') = dispatched acts ++ dispatched acts' := List.filterMap_append

namespace Session

variable {I L P : Type} [Interpreter I] [Loader L I] [Presenter P]

/-- what the task has its controller do in its turn at `now` -/
def acts (now : Instant) (s : Session I L P) : List Act :=
  if s.status ≠ .alive ∨ s.cancelled = true then []
  else
    match s.inbox with
    | command :: _ => [.dispatch now command]
    | [] =>
      if s.abandoned = false ∧ (s.controller.timer.poll now).1 = .ready then [.tick now] else []

/-- the ends that a turn at `now` can have -/
inductive Turned (now : Instant) (s : Session I L P) : List Act → Session I L P → Prop where
  | idle (status : s.status ≠ .alive) : Turned now s [] s
  | finish (status : s.status = .alive) (reason : s.cancelled = true ∨ (s.inbox = [] ∧ s.abandoned = true)) :
      Turned now s [] (s.finish now)
  | serve {command : Command} {rest : List Command} (status : s.status = .alive) (going : s.cancelled = false)
      (inbox : s.inbox = command :: rest) :
      Turned now s [.dispatch now command] ({ s with inbox := rest }.serve now command)
  | tick {timer : Timer} (status : s.status = .alive) (going : s.cancelled = false) (inbox : s.inbox = [])
      (held : s.abandoned = false) (poll : s.controller.timer.poll now = (.ready, timer)) :
      Turned now s [.tick now] (s.serveTick now timer)
  | overflow {timer : Timer} (status : s.status = .alive) (going : s.cancelled = false) (inbox : s.inbox = [])
      (held : s.abandoned = false) (poll : s.controller.timer.poll now = (.overflow, timer)) :
      Turned now s [] (s.close .crashed)
  | park (status : s.status = .alive) (going : s.cancelled = false) (inbox : s.inbox = []) (held : s.abandoned = false) :
      Turned now s [] { s with controller := { s.controller with timer := (s.controller.timer.poll now).2 } }

/-- **A turn ends in one of these ways.** -/
theorem turn_turned (now : Instant) (s : Session I L P) : Turned now s (s.acts now) (s.turn now).2 := by
  unfold turn acts
  by_cases hs : s.status = .alive
  · by_cases hc : s.cancelled = true
    · simpa [hs, hc] using Turned.finish hs (Or.inl hc)
    · have hgoing : s.cancelled = false := by simpa using hc
      cases hi : s.inbox with
      | cons command rest => simpa [hs, hc] using Turned.serve hs hgoing hi
      | nil =>
        by_cases ha : s.abandoned = true
        · simpa [hs, hc, ha] using Turned.finish hs (Or.inr ⟨hi, ha⟩)
        · have hheld : s.abandoned = false := by simpa using ha
          have hpark : Turned now s [] _ := .park hs hgoing hi hheld
          cases hp : s.controller.timer.poll now with
          | mk poll timer =>
            rw [hp] at hpark
            cases poll with
            | ready => simpa [hs, hc, ha] using Turned.tick hs hgoing hi hheld hp
            | overflow => simpa [hs, hc, ha] using Turned.overflow hs hgoing hi hheld hp
            | off => simpa [hs, hc, hi, ha] using hpark
            | pending due => simpa [hs, hc, hi, ha] using hpark
  · simpa [hs] using Turned.idle hs

/-! ## Steps and runs -/

/-- one step of a run, with what the task has the controller do in it and the commands that enter the inbox. Only who holds
a handle can post, and a sender that waits holds one -/
inductive Step : Session I L P → List Act → List Command → Session I L P → Prop where
  | post (s : Session I L P) (intent : Intent) (held : s.abandoned = false) : Step s [] [] (s.post intent).2
  | enter {s : Session I L P} {command : Command} {rest : List Command} (room : s.inbox.length < s.capacity)
      (first : s.waiting = command :: rest) :
      Step s [] [command] { s with inbox := s.inbox ++ [command], waiting := rest }
  | turn (s : Session I L P) (now : Instant) : Step s (s.acts now) [] (s.turn now).2
  | look (s : Session I L P) : Step s [] [] { s with seen := s.watch.version }
  | cancel (s : Session I L P) : Step s [] [] { s with cancelled := true }
  | letGo (s : Session I L P) (alone : s.waiting = []) : Step s [] [] { s with abandoned := true }

inductive Runs (s : Session I L P) : List Act → List Command → Session I L P → Prop where
  | refl : Runs s [] [] s
  | snoc {acts acts' : List Act} {entered entered' : List Command} {t u : Session I L P} (front : Runs s acts entered t)
      (last : Step t acts' entered' u) : Runs s (acts ++ acts') (entered ++ entered') u

variable {s t u : Session I L P} {as bs : List Act} {es fs : List Command} {now limit horizon later : Instant}

theorem Step.runs (h : Step s as es t) : Runs s as es t := by
  simpa using Runs.refl.snoc h

theorem Runs.trans (h : Runs s as es t) (h' : Runs t bs fs u) : Runs s (as ++ bs) (es ++ fs) u := by
  induction h' with
  | refl => simpa using h
  | snoc _ last ih => simpa using ih.snoc last

/-- steps one after the other in which the task takes no turn after `horizon`; a step that is no turn leaves controller and
task alone -/
inductive RunsBy (horizon : Instant) (s : Session I L P) : List Act → List Command → Session I L P → Prop where
  | refl : RunsBy horizon s [] [] s
  | turn {as : List Act} {es : List Command} {t : Session I L P} (front : RunsBy horizon s as es t) (now : Instant)
      (before : now ≤ horizon) : RunsBy horizon s (as ++ t.acts now) es (t.turn now).2
  | aside {as : List Act} {es es' : List Command} {t u : Session I L P} (front : RunsBy horizon s as es t)
      (last : Step t [] es' u) (controller : u.controller = t.controller) (status : u.status = t.status) :
      RunsBy horizon s as (es ++ es') u

theorem RunsBy.runs (h : RunsBy horizon s as es t) : Runs s as es t := by
  induction h with
  | refl => exact .refl
  | turn _ now before ih => simpa using ih.snoc (.turn _ now)
  | aside _ last controller status ih => simpa using ih.snoc last

theorem RunsBy.mono (h : RunsBy horizon s as es t) (hlater : horizon ≤ later) : RunsBy later s as es t := by
  induction h with
  | refl => exact .refl
  | turn _ now before ih => exact ih.turn now (Nat.le_trans before hlater)
  | aside _ last controller status ih => exact ih.aside last controller status

theorem RunsBy.trans (h : RunsBy horizon s as es t) (h' : RunsBy horizon t bs fs u) :
    RunsBy horizon s (as ++ bs) (es ++ fs) u := by
  induction h' with
  | refl => simpa using h
  | turn _ now before ih => simpa using ih.turn now before
  | aside _ last controller status ih => simpa using ih.aside last controller status

/-- every run comes to an end at some time -/
theorem Runs.by (h : Runs s as es t) : ∃ horizon, RunsBy horizon s as es t := by
  induction h with
  | refl => exact ⟨0, .refl⟩
  | snoc _ last ih =>
    obtain ⟨horizon, hfront⟩ := ih
    cases last with
    | turn now =>
      refine ⟨max horizon now, ?_⟩
      simpa using (hfront.mono (Nat.le_max_left ..)).turn now (Nat.le_max_right ..)
    | post intent held => exact ⟨horizon, by simpa using hfront.aside (.post _ intent held) rfl rfl⟩
    | enter room first => exact ⟨horizon, by simpa using hfront.aside (.enter room first) rfl rfl⟩
    | look => exact ⟨horizon, by simpa using hfront.aside (.look _) rfl rfl⟩
    | cancel => exact ⟨horizon, by simpa using hfront.aside (.cancel _) rfl rfl⟩
    | letGo alone => exact ⟨horizon, by simpa using hfront.aside (.letGo _ alone) rfl rfl⟩

/-- a step applies nothing, or it is a turn that applies one thing -/
theorem Step.acts_eq (h : Step s as es t) : as = [] ∨ ∃ now act, as = [act] ∧ s.acts now = [act] := by
  cases h with
  | turn now =>
    have hturn := turn_turned now s
    generalize hacts : s.acts now = as at hturn ⊢
    generalize (s.turn now).2 = t at hturn
    cases hturn with
    | serve status going inbox => exact Or.inr ⟨now, _, rfl, hacts⟩
    | tick status going inbox held poll => exact Or.inr ⟨now, _, rfl, hacts⟩
    | _ => exact Or.inl rfl
  | _ => exact Or.inl rfl

/-- a step that applies something is a turn -/
theorem Step.eq_turn (h : Step s as es t) (has : as ≠ []) : ∃ now, as = s.acts now ∧ es = [] ∧ t = (s.turn now).2 := by
  cases h with
  | turn now => exact ⟨now, rfl, rfl, rfl⟩
  | _ => exact absurd rfl has

/-- **A run can be cut at any act**: what it was until then, the turn that applied the act, and what came after are runs -/
theorem Runs.split (h : Runs s as es t) {before after : List Act} {act : Act} (has : as = before ++ act :: after) :
    ∃ fs gs r now, es = fs ++ gs ∧ Runs s before fs r ∧ r.acts now = [act] ∧ Runs (r.turn now).2 after gs t := by
  induction h generalizing after with
  | refl => simp at has
  | @snoc as as' es es' t u front last ih =>
    rcases last.acts_eq with rfl | ⟨now, act', rfl, hacts⟩
    · obtain ⟨fs, gs, r, at', rfl, hr, hact, hrest⟩ := ih (by simpa using has)
      exact ⟨fs, gs ++ es', r, at', List.append_assoc .., hr, hact, by simpa using hrest.snoc last⟩
    · rcases List.eq_nil_or_concat' after with rfl | ⟨after, act'', rfl⟩
      · obtain ⟨rfl, hact⟩ := List.append_inj' has rfl
        obtain rfl : act' = act := by simpa using hact
        obtain ⟨at', hturn, rfl, rfl⟩ := last.eq_turn (by simp)
        exact ⟨es, [], t, at', rfl, front, hturn.symm, .refl⟩
      · have hfront : as ++ [act'] = (before ++ act :: after) ++ [act''] := by simpa using has
        obtain ⟨has, hlast⟩ := List.append_inj' hfront rfl
        obtain ⟨fs, gs, r, at', rfl, hr, hact, hrest⟩ := ih has
        have hlast : act' = act'' := by simpa using hlast
        exact ⟨fs, gs ++ es', r, at', List.append_assoc .., hr, hact, hlast ▸ hrest.snoc last⟩

/-- what was until an act is a run, and the act is what the task did next -/
theorem Runs.cut (h : Runs s as es t) {before after : List Act} {act : Act} (has : as = before ++ act :: after) :
    ∃ fs r now, Runs s before fs r ∧ r.acts now = [act] := by
  obtain ⟨fs, gs, r, now, -, hr, hacts, -⟩ := h.split has
  exact ⟨fs, r, now, hr, hacts⟩

/-- a tick is applied only where no command is in the inbox, and the session goes on -/
theorem acts_tick {now now' : Instant} (h : s.acts now = [.tick now']) :
    s.isAlive = true ∧ s.inbox = [] ∧ s.cancelled = false ∧ s.abandoned = false := by
  have hturn := turn_turned now s
  rw [h] at hturn
  generalize (s.turn now).2 = t at hturn
  cases hturn with
  | tick status going inbox held poll => exact ⟨by simp [isAlive, status], inbox, going, held⟩

/-- the task takes a tick when its timer is ready -/
theorem acts_tick_ready {now now' : Instant} (h : s.acts now = [.tick now']) :
    now' = now ∧ (s.controller.timer.poll now).1 = .ready := by
  have hturn := turn_turned now s
  rw [h] at hturn
  generalize (s.turn now).2 = t at hturn
  cases hturn with
  | tick status going inbox held poll => exact ⟨rfl, by rw [poll]⟩

/-! ## Sessions that are over -/

/-- a cancelled session applies nothing more, and leaves its controller alone -/
theorem Turned.cancelled (h : Turned now s as t) (hc : s.cancelled = true) :
    as = [] ∧ t.cancelled = true ∧ t.controller = s.controller ∧ (t.status = .crashed ↔ s.status = .crashed) := by
  cases h with
  | idle status => exact ⟨rfl, hc, rfl, Iff.rfl⟩
  | finish status reason => exact ⟨rfl, hc, rfl, by simp [Session.finish, close, status]⟩
  | serve status going inbox => simp [hc] at going
  | tick status going inbox held poll => simp [hc] at going
  | overflow status going inbox held poll => simp [hc] at going
  | park status going inbox held => simp [hc] at going

theorem Step.cancelled (h : Step s as es t) (hc : s.cancelled = true) :
    as = [] ∧ t.cancelled = true ∧ t.controller = s.controller ∧ (t.status = .crashed ↔ s.status = .crashed) := by
  cases h with
  | post intent held => exact ⟨rfl, hc, rfl, Iff.rfl⟩
  | enter room first => exact ⟨rfl, hc, rfl, Iff.rfl⟩
  | look => exact ⟨rfl, hc, rfl, Iff.rfl⟩
  | cancel => exact ⟨rfl, rfl, rfl, Iff.rfl⟩
  | letGo alone => exact ⟨rfl, hc, rfl, Iff.rfl⟩
  | turn now => exact (turn_turned now s).cancelled hc

theorem Runs.cancelled (h : Runs s as es t) (hc : s.cancelled = true) :
    as = [] ∧ t.controller = s.controller ∧ (t.status = .crashed ↔ s.status = .crashed) := by
  have hrun : as = [] ∧ t.cancelled = true ∧ t.controller = s.controller ∧ (t.status = .crashed ↔ s.status = .crashed) := by
    induction h with
    | refl => exact ⟨rfl, hc, rfl, Iff.rfl⟩
    | snoc _ last ih =>
      obtain ⟨rfl, hct, hcontroller, hstatus⟩ := ih
      obtain ⟨rfl, hcu, hcontroller', hstatus'⟩ := last.cancelled hct
      exact ⟨rfl, hcu, hcontroller'.trans hcontroller, hstatus'.trans hstatus⟩
  exact ⟨hrun.1, hrun.2.2⟩

/-- no handle is left, and nothing is on its way to the task -/
structure Unreachable (s : Session I L P) : Prop where
  abandoned : s.abandoned = true
  inbox : s.inbox = []
  waiting : s.waiting = []

/-- what a task leaves as it was: what clients said to it, and who waits in line, as long as it is alive -/
structure Untouched (s t : Session I L P) : Prop where
  cancelled : t.cancelled = s.cancelled
  abandoned : t.abandoned = s.abandoned
  waiting : t.waiting = s.waiting ∨ (t.status ≠ .alive ∧ t.waiting = [])
  alive : t.status = .alive → s.status = .alive

theorem serve_untouched (now : Instant) (command : Command) (s : Session I L P) : Untouched s (s.serve now command) := by
  unfold serve
  dsimp only
  cases (Controller.dispatch now command.intent s.controller).value with
  | none => exact ⟨rfl, rfl, Or.inr ⟨nofun, rfl⟩, nofun⟩
  | some result => cases result <;> exact ⟨rfl, rfl, Or.inl rfl, id⟩

omit [Loader L I] in
theorem serveTick_untouched (now : Instant) (timer : Timer) (s : Session I L P) :
    Untouched s (s.serveTick now timer) := by
  unfold serveTick
  dsimp only
  cases (Controller.tick now { s.controller with timer }).value with
  | none => exact ⟨rfl, rfl, Or.inr ⟨nofun, rfl⟩, nofun⟩
  | some outcome => exact ⟨rfl, rfl, Or.inl rfl, id⟩

/-- a turn takes no handle away, and makes no sender wait -/
theorem Turned.untouched (h : Turned now s as t) : Untouched s t := by
  cases h with
  | idle status => exact ⟨rfl, rfl, Or.inl rfl, id⟩
  | finish status reason => exact ⟨rfl, rfl, Or.inr ⟨nofun, rfl⟩, nofun⟩
  | @serve command rest status going inbox =>
    have hserved := serve_untouched now command { s with inbox := rest }
    exact ⟨hserved.cancelled, hserved.abandoned, hserved.waiting, hserved.alive⟩
  | tick status going inbox held poll => exact serveTick_untouched now _ s
  | overflow status going inbox held poll => exact ⟨rfl, rfl, Or.inr ⟨nofun, rfl⟩, nofun⟩
  | park status going inbox held => exact ⟨rfl, rfl, Or.inl rfl, id⟩

/-- where no handle is left no sender waits -/
theorem Step.alone (h : Step s as es t) (hs : s.abandoned = true → s.waiting = []) :
    t.abandoned = true → t.waiting = [] := by
  intro ha
  cases h with
  | post intent held => exact absurd (held.symm.trans ha) (by decide)
  | enter room first =>
    have hnone := hs ha
    rw [first] at hnone
    exact absurd hnone (by simp)
  | look => exact hs ha
  | cancel => exact hs ha
  | letGo alone => exact alone
  | turn now =>
    obtain ⟨-, habandoned, hwaiting, -⟩ := (turn_turned now s).untouched
    rw [habandoned] at ha
    rcases hwaiting with hsame | ⟨-, hnone⟩
    · rw [hsame]
      exact hs ha
    · exact hnone

theorem Runs.alone (h : Runs s as es t) (hs : s.abandoned = true → s.waiting = []) :
    t.abandoned = true → t.waiting = [] := by
  induction h with
  | refl => exact hs
  | snoc _ last ih => exact last.alone ih

/-- a session that nobody can reach applies nothing more -/
theorem Turned.unreachable (h : Turned now s as t) (hs : Unreachable s) : as = [] ∧ Unreachable t := by
  cases h with
  | idle status => exact ⟨rfl, hs⟩
  | finish status reason => exact ⟨rfl, hs.abandoned, rfl, rfl⟩
  | serve status going inbox => simp [hs.inbox] at inbox
  | tick status going inbox held poll => simp [hs.abandoned] at held
  | overflow status going inbox held poll => simp [hs.abandoned] at held
  | park status going inbox held => simp [hs.abandoned] at held

theorem Step.unreachable (h : Step s as es t) (hs : Unreachable s) : as = [] ∧ Unreachable t := by
  cases h with
  | post intent held => simp [hs.abandoned] at held
  | enter room first => simp [hs.waiting] at first
  | look => exact ⟨rfl, hs.abandoned, hs.inbox, hs.waiting⟩
  | cancel => exact ⟨rfl, hs.abandoned, hs.inbox, hs.waiting⟩
  | letGo alone => exact ⟨rfl, rfl, hs.inbox, hs.waiting⟩
  | turn now => exact (turn_turned now s).unreachable hs

theorem Runs.unreachable (h : Runs s as es t) (hs : Unreachable s) : as = [] := by
  have hrun : as = [] ∧ Unreachable t := by
    induction h with
    | refl => exact ⟨rfl, hs⟩
    | snoc _ last ih =>
      obtain ⟨rfl, ht⟩ := ih
      exact last.unreachable ht
  exact hrun.1

/-! ## The ways in which a session is driven -/

/-- senders that fill the inbox enter it one after the other -/
theorem runsBy_fillInbox (horizon : Instant) (s : Session I L P) :
    RunsBy horizon s [] (s.waiting.take (s.capacity - s.inbox.length)) s.fillInbox := by
  generalize hw : s.waiting = w
  induction w generalizing s with
  | nil =>
    have hsame : s.fillInbox = s := by
      cases s
      simp_all [fillInbox]
    rw [hsame, List.take_nil]
    exact .refl
  | cons command rest ih =>
    by_cases hroom : s.inbox.length < s.capacity
    · have hstep : RunsBy horizon s [] [command] { s with inbox := s.inbox ++ [command], waiting := rest } :=
        .aside .refl (.enter hroom hw) rfl rfl
      have hnext := ih { s with inbox := s.inbox ++ [command], waiting := rest } rfl
      obtain ⟨k, hk⟩ : ∃ k, s.capacity - s.inbox.length = k + 1 := ⟨s.capacity - s.inbox.length - 1, by omega⟩
      have htake : (command :: rest).take (s.capacity - s.inbox.length) =
          [command] ++ rest.take (s.capacity - (s.inbox ++ [command]).length) := by
        rw [hk, List.take_succ_cons, List.length_append, List.length_singleton, Nat.sub_add_eq, hk]
        rfl
      have hfill : s.fillInbox = ({ s with inbox := s.inbox ++ [command], waiting := rest } : Session I L P).fillInbox := by
        simp [fillInbox, hw, hk, Nat.sub_add_eq]
      rw [htake, hfill]
      simpa using hstep.trans hnext
    · have hfull : s.capacity - s.inbox.length = 0 := by omega
      have hsame : s.fillInbox = s := by
        cases s
        simp_all [fillInbox]
      rw [hsame, hfull, List.take_zero]
      exact .refl

/-- a request, from the posting to the turn after it: the senders in line enter the inbox as far as there is room -/
theorem runsBy_request (hnow : now ≤ horizon) (intent : Intent) (held : s.abandoned = false) :
    RunsBy horizon s ((s.post intent).2.fillInbox.acts now)
      ((s.post intent).2.waiting.take ((s.post intent).2.capacity - (s.post intent).2.inbox.length))
      ((s.post intent).2.fillInbox.turn now).2 := by
  have hposted : RunsBy horizon s [] [] (s.post intent).2 := .aside .refl (.post s intent held) rfl rfl
  simpa using (hposted.trans (runsBy_fillInbox horizon _)).turn now hnow

theorem runs_request (now : Instant) (intent : Intent) (held : s.abandoned = false) :
    Runs s ((s.post intent).2.fillInbox.acts now)
      ((s.post intent).2.waiting.take ((s.post intent).2.capacity - (s.post intent).2.inbox.length))
      ((s.post intent).2.fillInbox.turn now).2 := (runsBy_request (Nat.le_refl now) intent held).runs

/-- a session can be driven to another one -/
def Leads (s t : Session I L P) : Prop := ∃ as es, Runs s as es t

theorem Leads.refl (s : Session I L P) : Leads s s := ⟨[], [], .refl⟩

theorem Leads.trans (h : Leads s t) (h' : Leads t u) : Leads s u := by
  obtain ⟨as, es, h⟩ := h
  obtain ⟨bs, fs, h'⟩ := h'
  exact ⟨_, _, h.trans h'⟩

theorem Step.leads (h : Step s as es t) : Leads s t := ⟨as, es, h.runs⟩

/-! ### Sessions left to themselves -/

/-- a session left to itself comes to another one, until `horizon`: the task takes turns, and somebody looks, but nobody says
anything to it. As long as the task is alive the senders in line enter the inbox, in order, or still wait -/
def Passes (horizon : Instant) (s t : Session I L P) : Prop :=
  ∃ as es, RunsBy horizon s as es t ∧ t.cancelled = s.cancelled ∧ t.abandoned = s.abandoned ∧
    (t.status = .alive → s.status = .alive ∧ es ++ t.waiting = s.waiting)

theorem Passes.refl (horizon : Instant) (s : Session I L P) : Passes horizon s s :=
  ⟨[], [], .refl, rfl, rfl, fun hs => ⟨hs, rfl⟩⟩

theorem Passes.mono (h : Passes horizon s t) (hlater : horizon ≤ later) : Passes later s t := by
  obtain ⟨as, es, hruns, hrest⟩ := h
  exact ⟨as, es, hruns.mono hlater, hrest⟩

theorem Passes.trans (h : Passes horizon s t) (h' : Passes horizon t u) : Passes horizon s u := by
  obtain ⟨as, es, hruns, hcancelled, habandoned, hline⟩ := h
  obtain ⟨bs, fs, hruns', hcancelled', habandoned', hline'⟩ := h'
  refine ⟨as ++ bs, es ++ fs, hruns.trans hruns', hcancelled'.trans hcancelled, habandoned'.trans habandoned, ?_⟩
  intro hu
  obtain ⟨ht, hlater⟩ := hline' hu
  obtain ⟨hs, hearlier⟩ := hline ht
  refine ⟨hs, ?_⟩
  rw [List.append_assoc, hlater, hearlier]

theorem Passes.leads (h : Passes horizon s t) : Leads s t := by
  obtain ⟨as, es, hruns, -⟩ := h
  exact ⟨as, es, hruns.runs⟩

theorem passes_turn (now : Instant) (s : Session I L P) : Passes now s (s.turn now).2 := by
  obtain ⟨hcancelled, habandoned, hwaiting, halive⟩ := (turn_turned now s).untouched
  refine ⟨_, [], .turn .refl now (Nat.le_refl now), hcancelled, habandoned, fun ht => ⟨halive ht, ?_⟩⟩
  rcases hwaiting with hsame | ⟨hover, -⟩
  · exact hsame
  · exact absurd ht hover

theorem passes_fillInbox (horizon : Instant) (s : Session I L P) : Passes horizon s s.fillInbox :=
  ⟨[], _, runsBy_fillInbox horizon s, rfl, rfl, fun hs => ⟨hs, List.take_append_drop ..⟩⟩

theorem passes_look (horizon : Instant) (s : Session I L P) : Passes horizon s { s with seen := s.watch.version } :=
  ⟨[], [], .aside .refl (.look s) rfl rfl, rfl, rfl, fun hs => ⟨hs, rfl⟩⟩

theorem passes_turns (now : Instant) (fuel : Nat) (s : Session I L P) : Passes now s (s.turns now fuel) := by
  induction fuel generalizing s with
  | zero => exact .refl now s
  | succ fuel ih =>
    have hturn := passes_turn now s
    unfold turns
    split
    case h_1 t ht =>
      rw [ht] at hturn
      exact hturn.trans (ih t)
    case h_2 t ht =>
      rw [ht] at hturn
      exact hturn

theorem passes_rounds (now : Instant) (fuel : Nat) (s : Session I L P) : Passes now s (s.rounds now fuel) := by
  induction fuel generalizing s with
  | zero => exact .refl now s
  | succ fuel ih =>
    have hround : Passes now s (s.fillInbox.work now) := (passes_fillInbox now s).trans (passes_turns now _ _)
    unfold rounds
    dsimp only
    split
    · exact hround
    · exact hround.trans (ih _)

theorem passes_settle (now : Instant) (s : Session I L P) : Passes now s (s.settle now) := passes_rounds now _ s

/-- as time passes until `limit`, the task takes no turn after `horizon`, where this is not before -/
theorem passes_runInstants (stop : Session I L P → Bool) (limit : Instant) (fuel : Nat) {now : Instant}
    (hnow : now ≤ horizon) (hlimit : limit ≤ horizon) (s : Session I L P) :
    Passes horizon s (s.runInstants stop limit fuel now).2 := by
  induction fuel generalizing now s with
  | zero => exact .refl horizon s
  | succ fuel ih =>
    have hsettle := (passes_settle now s).mono hnow
    unfold runInstants
    dsimp only
    split
    · exact hsettle
    · split
      · split
        case isTrue hbefore => exact hsettle.trans (ih (Nat.le_trans (Nat.le_of_lt hbefore) hlimit) _)
        case isFalse => exact hsettle
      · exact hsettle

/-- letting time pass leaves the session to itself -/
theorem passes_sleep (hnow : now ≤ limit) (s : Session I L P) : Passes limit s (s.sleep now limit) :=
  passes_runInstants _ limit _ hnow (Nat.le_refl limit) s

theorem leads_settle (now : Instant) (s : Session I L P) : Leads s (s.settle now) := (passes_settle now s).leads

theorem leads_runInstants (stop : Session I L P → Bool) (limit : Instant) (fuel : Nat) (now : Instant) (s : Session I L P) :
    Leads s (s.runInstants stop limit fuel now).2 :=
  (passes_runInstants stop limit fuel (Nat.le_max_left now limit) (Nat.le_max_right now limit) s).leads

theorem leads_sleep (now limit : Instant) (s : Session I L P) : Leads s (s.sleep now limit) := leads_runInstants ..

theorem leads_waitFor (target : Phase) (now limit : Instant) (s : Session I L P) :
    Leads s (s.waitFor target now limit).2.2 := by
  unfold waitFor
  dsimp only
  split
  · exact (Step.look s).leads
  · split
    · exact (Step.look s).leads
    · exact (leads_runInstants _ limit _ now s).trans (Step.look _).leads

/-! ### The end of a session -/

/-- shutting down is a run -/
theorem leads_shutdown (now : Instant) (s : Session I L P) : Leads s (s.shutdown now).2 :=
  (Step.cancel s).leads.trans (leads_settle now _)

/-- shutting down gives back the controller as it is, unless it broke down before -/
theorem shutdown_fst (now : Instant) (s : Session I L P) :
    (s.shutdown now).1 = if s.status = .crashed then .error .sessionLost else .ok s.controller := by
  obtain ⟨as, es, hsettle⟩ := leads_settle now { s with cancelled := true }
  obtain ⟨-, hcontroller, hstatus⟩ := hsettle.cancelled rfl
  unfold shutdown
  dsimp only
  rw [hcontroller]
  exact if_congr hstatus rfl rfl

/-- letting go of the handle is a run, when no sender waits -/
theorem leads_abandon (now : Instant) (h : s.waiting = []) : Leads s (s.abandon now) :=
  (Step.letGo s h).leads.trans (leads_settle now _)

end Session

end StepControl

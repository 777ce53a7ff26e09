/-
The log is an audit trail.

`Logged past w c` says that `c` was reached with the history `past`, and that `w` is all that was written down since the
controller was made, by the controller itself or by whoever drives it. `Audited past w c` says that the log in `w` tells the
whole story:
- the changes of phase that were announced, in order;
- the sessions in the order of their numbers, and each record about a session under the number of the one that started last;
- the ends of programs as the interpreters answered them;
- one start for each operation that began a session, and one stop for each that ended one.
Where an interpreter breaks down in the middle of an operation, what is on record by then is a trail as far as it goes
(`Trail`).

Results:
- `Controller.perform_filed`: an operation has on record the session that it began and the one that it ended, once each.
- `Controller.Logged.audit` / `Controller.Logged.breakdown_trail`: logs of histories are audited, and so is what a breakdown
  leaves of them.
- `Session.Runs.tracked`: what a session writes down is such a log too; the task adds nothing but records about no session.
- `Session.audited_of_logged`: all of it, for direct operations and for sessions, with the operation that comes next.
- `Session.audited_of_logged_restarted`: sessions one after the other, with a restart, a fault and a handover, and an
  internal fault in the end.

Premises: none of the interpreter, which may break down in any call. Loader, presenter, operations and the order of all that
clients and task do are arbitrary. The records themselves are told in `Records`.
-/
import StepControl.Proofs.Records
import StepControl.Proofs.Turns

namespace StepControl

open StepControl.Action

namespace Applied

/-- a session was begun: by a start that was not refused -/
def begins (e : Applied) : Bool :=
  match e.operation.plain with
  | .run | .firstStep => e.reply.toResult.isOk
  | _ => false

/-- a session was ended from outside, or put back after a fault: by a stop where there was something to stop, or by a start
over a session that was live -/
def ends (e : Applied) : Bool :=
  match e.operation.plain with
  | .stop => e.before.hasSession || e.before = .faulted
  | .run | .firstStep => e.reply.toResult.isOk && e.before.hasSession
  | _ => false

end Applied

namespace Controller

variable {I L P : Type} [Interpreter I] [Presenter P] {c d : Controller I L P} {j k w : List (Entry I)} {now : Instant}
  {past : List Applied} {e : Applied}

/-! ## What an operation has on record of sessions -/

/-- the session that an operation began, and the one that it ended, each on record once -/
structure Filed (c : Controller I L P) (e : Applied) (j : List (Entry I)) : Prop where
  starts : starts j = if e.begins = true then [c.nextSession] else []
  stops : stops j = if e.ends = true then [c.session] else []

omit [Interpreter I] [Presenter P] in
theorem Uneventful.filed (h : Uneventful j) (hbegins : e.begins = false) (hends : e.ends = false) : Filed c e j where
  starts := by
    rw [hbegins]
    exact h.1
  stops := by
    rw [hends]
    exact h.2

theorem executeStep_uneventful (h : Steady c) (hp : c.phase.canStep = true) :
    (executeStep now : Drive I L P Outcome).Yields c fun _ _ j => Uneventful j := by
  rcases executeStep_cases now h hp with ⟨inst, hooks, verdict, machine, hl, hn⟩ | hbroken
  · refine ((gives_executeStep_end h hp hl hn now).imp ?_).yields
    intro _ d j hend
    cases hend with
    | halt why => exact (uneventful_stepEntries _ _).append (uneventful_farewell why)
    | proceed silent => exact uneventful_stepEntries _ _
    | ask asked => exact (uneventful_stepEntries _ _).append ⟨rfl, rfl⟩
  · exact yields_of_none hbroken

theorem stop_filed (now : Instant) (h : Steady c) :
    (stop : Drive I L P Unit).Yields c fun _ d j => Filed c (applied now .stop .nothing c d) j := by
  rcases stop_cases h with hv | ⟨inst, machine, hp, hl, hr⟩ | hbroken
  · refine Gives.yields ?_
    rw [gives_stop_vacant hv]
    refine Uneventful.filed ⟨rfl, rfl⟩ rfl ?_
    obtain hv | hv := hv <;> simp [applied, Applied.ends, Operation.plain, hv, Phase.hasSession]
  · refine Gives.yields ?_
    rw [gives_stop hp hl hr]
    have hends : ∀ after, (applied now .stop .nothing c after).ends = true := by
      obtain hp | hp := hp <;> simp [applied, Applied.ends, Operation.plain, hp]
    refine ⟨rfl, ?_⟩
    rw [hends]
    rfl
  · exact yields_of_none hbroken

theorem supplyInput_uneventful (h : Steady c) (text : String) :
    (supplyInput now text : Drive I L P (Except Error Unit)).Yields c fun _ _ j => Uneventful j := by
  rcases supplyInput_cases now text h with hp | ⟨hp, cell, inst, verdict, machine, hg, hl, ht⟩ | hbroken
  · refine Gives.yields ?_
    rw [gives_supplyInput_rejected hp]
    exact ⟨rfl, rfl⟩
  · refine Gives.yields ?_
    cases verdict with
    | proceed =>
      rw [gives_supplyInput_proceed hp hg hl ht]
      exact ⟨rfl, rfl⟩
    | halt why =>
      rw [gives_supplyInput_halt hp hg hl (h.errorShown (by rw [hp]; rfl)) ht]
      exact uneventful_farewell why
  · exact yields_of_none hbroken

variable [Loader L I]

omit [Presenter P] in
/-- a start that is not refused starts the next session, and stops the one that was live -/
theorem startEntries_filed (hc : Cleared c.loaded j d) (target : Phase) :
    starts (c.startEntries d j target) = [c.nextSession] ∧
      stops (c.startEntries d j target) = if c.phase.hasSession = true then [c.session] else [] := by
  cases hc with
  | empty vacant =>
    rw [show c.phase.hasSession = false from vacant]
    exact ⟨rfl, rfl⟩
  | stopped busy live reset =>
    rw [show c.phase.hasSession = true from busy]
    exact ⟨rfl, rfl⟩

theorem run_filed (h : Steady c) :
    (perform now .run : Drive I L P Reply).Yields c fun reply d j => Filed c (applied now .run reply c d) j := by
  rw [perform, yields_map]
  rcases h.start_cases with ⟨message, hc⟩ | ⟨j, d, machine, hs⟩ | hbroken
  · refine Gives.yields ?_
    rw [gives_run_rejected hc]
    exact Uneventful.filed ⟨rfl, rfl⟩ rfl rfl
  · refine Gives.yields ?_
    rw [gives_run_accepted hs.check hs.cleared hs.reset]
    obtain ⟨hstarts, hstops⟩ := startEntries_filed hs.cleared .running
    exact ⟨hstarts, hstops⟩
  · exact yields_of_none (run_breaks hbroken)

theorem firstStep_filed (h : Steady c) :
    (perform now .firstStep : Drive I L P Reply).Yields c fun reply d j =>
      Filed c (applied now .firstStep reply c d) j := by
  rw [perform, yields_map]
  rcases h.start_cases with ⟨message, hc⟩ | ⟨j, d, machine, hs⟩ | hbroken
  · refine Gives.yields ?_
    rw [gives_firstStep_rejected hc]
    exact Uneventful.filed ⟨rfl, rfl⟩ rfl rfl
  · rw [yields_firstStep_started hs]
    have hstart : Move now none c _ _ := .start hs.check hs.cleared hs.reset (Or.inr rfl)
    obtain ⟨hstarts, hstops⟩ := startEntries_filed hs.cleared .steppingOnce
    refine (executeStep_uneventful ((hstart.steady h).hear _) rfl).imp ?_
    intro outcome e k hk
    have hfiled : ∀ (k : List (Entry I)) (after : Controller I L P), Uneventful k →
        Filed c (applied now .firstStep (.started (.ok outcome)) c after) (c.startEntries d j .steppingOnce ++ k) := by
      intro k after hk
      refine ⟨?_, ?_⟩
      · rw [starts_append, hk.1, List.append_nil]
        exact hstarts
      · rw [stops_append, hk.2, List.append_nil]
        exact hstops
    split
    case isTrue hp => exact hfiled _ _ (hk.append ⟨rfl, rfl⟩)
    case isFalse hp => exact hfiled _ _ hk
  · exact yields_of_none (firstStep_breaks hbroken)

theorem intent_filed (h : Steady c) (intent : Intent) :
    (perform now intent.operation : Drive I L P Reply).Yields c fun reply d j =>
      Filed c (applied now intent.operation reply c d) j := by
  cases intent with
  | load text => exact yields_of_eq (a := .nothing) rfl (Uneventful.filed ⟨rfl, rfl⟩ rfl rfl)
  | setOptimize on => exact yields_of_eq (a := .nothing) rfl (Uneventful.filed ⟨rfl, rfl⟩ rfl rfl)
  | run => exact run_filed h
  | firstStep => exact firstStep_filed h
  | step =>
    rw [Intent.operation, perform, yields_map]
    by_cases hp : c.phase = .paused
    · rw [yields_congr (step_paused hp), yields_map]
      exact (executeStep_uneventful h (by rw [hp]; rfl)).imp fun _ _ _ hj => hj.filed rfl rfl
    · exact yields_of_eq (step_ignored hp) (Uneventful.filed ⟨rfl, rfl⟩ rfl rfl)
  | pause =>
    refine Gives.yields ?_
    simp only [Intent.operation, perform, pause, gives_bind, gives_read, gives_pure]
    split
    case h_1 hp =>
      simp only [gives_bind, gives_update, gives_goTo]
      rw [if_neg (by simp [hp])]
      exact Uneventful.filed ⟨rfl, rfl⟩ rfl rfl
    case h_2 hp => simpa using Uneventful.filed ⟨rfl, rfl⟩ rfl rfl
    case h_3 hp _ => simpa using Uneventful.filed ⟨rfl, rfl⟩ rfl rfl
  | resume =>
    refine Gives.yields ?_
    simp only [Intent.operation, perform, resume, gives_bind, gives_read, gives_ite, gives_pure]
    split
    case isTrue hp =>
      simp only [gives_arm, gives_goTo]
      rw [if_neg (by simp [hp])]
      exact Uneventful.filed ⟨rfl, rfl⟩ rfl rfl
    case isFalse hp => simpa using Uneventful.filed ⟨rfl, rfl⟩ rfl rfl
  | stop =>
    rw [Intent.operation, perform, yields_bind]
    refine (stop_filed now h).imp ?_
    intro _ d j hj
    exact yields_of_eq (a := .nothing) rfl (by rwa [List.append_nil])
  | supplyInput text =>
    rw [Intent.operation, perform, yields_map]
    exact (supplyInput_uneventful h text).imp fun _ _ _ hj => hj.filed rfl rfl
  | setDelay millis =>
    rw [Intent.operation, perform, yields_map]
    refine Gives.yields ?_
    unfold setDelay
    split
    case h_1 e he => simpa using Uneventful.filed ⟨rfl, rfl⟩ rfl rfl
    case h_2 delay he => simpa using Uneventful.filed ⟨rfl, rfl⟩ rfl rfl

/-- **An operation has on record what it did with sessions.** -/
theorem perform_filed (h : Steady c) (op : Operation) :
    (perform now op : Drive I L P Reply).Yields c fun reply d j => Filed c (applied now op reply c d) j := by
  rcases op.kinds with rfl | ⟨intent, rfl⟩ | ⟨intent, rfl⟩
  · rw [perform, yields_map]
    by_cases hp : c.phase = .running
    · rw [yields_congr (tick_running hp), yields_map]
      exact (executeStep_uneventful h (by rw [hp]; rfl)).imp fun _ _ _ hj => hj.filed rfl rfl
    · exact yields_of_eq (tick_dropped hp) (Uneventful.filed ⟨rfl, rfl⟩ rfl rfl)
  · exact intent_filed h intent
  · rw [yields_dispatch]
    refine (intent_filed h intent).imp ?_
    intro reply d j hj
    have hbegins : (applied now (.dispatch intent) (.result reply.toResult) c d).begins =
        (applied now intent.operation reply c d).begins := by
      simp only [applied, Applied.begins, Intent.plain_operation]
      rfl
    have hends : (applied now (.dispatch intent) (.result reply.toResult) c d).ends =
        (applied now intent.operation reply c d).ends := by
      simp only [applied, Applied.ends, Intent.plain_operation]
      rfl
    refine ⟨?_, ?_⟩
    · rw [hbegins]
      exact hj.starts
    · rw [hends]
      exact hj.stops

/-! ## Logs -/

/-- `c` was reached with the history `past`, and `w` is all that was written down since it was made. Whoever drives the
controller may add records of his own, about no session -/
inductive Logged : List Applied → List (Entry I) → Controller I L P → Prop where
  | new (config : Config) (loader : L) (presenter : P) : Logged [] [] (ofConfig config loader presenter)
  | perform {past : List Applied} {w : List (Entry I)} {c : Controller I L P} {reply : Reply} (front : Logged past w c)
      (now : Instant) (op : Operation) (returned : ((perform now op : Drive I L P Reply) c).value = some reply) :
      Logged (past ++ [applied now op reply c ((perform now op : Drive I L P Reply) c).state])
        (w ++ ((perform now op : Drive I L P Reply) c).journal) ((perform now op : Drive I L P Reply) c).state
  | poll {past : List Applied} {w : List (Entry I)} {c : Controller I L P} (front : Logged past w c) (now : Instant) :
      Logged past w { c with timer := (c.timer.poll now).2 }
  | aside {past : List Applied} {w : List (Entry I)} {c : Controller I L P} (front : Logged past w c) (note : Note)
      (silent : note.session? = none) : Logged past (w ++ [.noted note]) c

theorem Logged.reached (h : Logged past w c) : Reached past c := by
  induction h with
  | new config loader presenter => exact .new config loader presenter
  | perform front now op returned ih => exact ih.perform now op returned
  | poll front now ih => exact ih.poll now
  | aside front note silent ih => exact ih

theorem Logged.asides (h : Logged past w c) {notes : List Note} (silent : ∀ n ∈ notes, n.session? = none) :
    Logged past (w ++ notes.map .noted) c := by
  induction notes generalizing w with
  | nil => rwa [List.map_nil, List.append_nil]
  | cons note notes ih =>
    obtain ⟨hnote, hnotes⟩ := List.forall_mem_cons.1 silent
    have hrest := ih (h.aside note hnote) hnotes
    rwa [List.append_assoc] at hrest

/-- what the next operation did is a sequence of moves -/
theorem moves_of_logged (h : Logged past w c) {op : Operation} {reply : Reply}
    (returned : ((perform now op : Drive I L P Reply) c).value = some reply) :
    Moves now op.input? c ((perform now op : Drive I L P Reply) c).journal ((perform now op : Drive I L P Reply) c).state := by
  obtain ⟨hsteady, hq⟩ := h.reached.steady
  obtain ⟨hmoves, -⟩ := perform_yields hsteady hq op reply returned
  exact hmoves

/-- operations carried out one after the other that all return are a log -/
theorem logged_performAll (h : Logged past w c) (ops : List (Instant × Operation)) {replies : List Reply}
    (returned : ((performAll ops : Drive I L P (List Reply)) c).value = some replies) :
    ∃ since, since.map Applied.asked = ops ∧
      Logged (past ++ since) (w ++ ((performAll ops : Drive I L P (List Reply)) c).journal)
        ((performAll ops : Drive I L P (List Reply)) c).state := by
  induction ops generalizing past w c replies with
  | nil => exact ⟨[], rfl, by simpa [performAll] using h⟩
  | cons op ops ih =>
    obtain ⟨now, op⟩ := op
    cases hv : ((perform now op : Drive I L P Reply) c).value with
    | none =>
      rw [performAll_cons_broken ops hv] at returned
      exact absurd returned (by simp)
    | some reply =>
      rw [performAll_cons_apply ops hv] at returned ⊢
      obtain ⟨rest, hrest, -⟩ := Option.map_eq_some_iff.1 returned
      obtain ⟨since, hsince, hlog⟩ := ih (h.perform now op hv) hrest
      refine ⟨[applied now op reply c ((perform now op : Drive I L P Reply) c).state] ++ since, ?_, ?_⟩
      · rw [List.map_append, hsince]
        rfl
      · rwa [List.append_assoc, List.append_assoc] at hlog

/-- a log tells how a new controller came to be as it is -/
theorem Logged.tells (h : Logged past w c) : Tells .idle none w c.phase c.session := by
  induction h with
  | new config loader presenter => exact tells_nil
  | perform front now op returned ih => exact ih.append ((moves_of_logged front returned).tells front.reached.steady.1)
  | poll front now ih => exact ih
  | aside front note silent ih => exact ih.append (tells_silent rfl (List.forall_mem_singleton.2 silent) rfl)

theorem Logged.numbers (h : Logged past w c) : Numbers none w c.session := by
  induction h with
  | new config loader presenter => exact ⟨rfl, rfl, rfl⟩
  | perform front now op returned ih => exact ih.append (moves_of_logged front returned).numbers
  | poll front now ih => exact ih
  | aside front note silent ih => exact ih.append ((uneventful_noted silent).numbers rfl rfl)

/-- one start is on record for each operation that began a session, and one stop for each that ended one -/
theorem Logged.counted (h : Logged past w c) :
    (starts w).length = past.countP Applied.begins ∧ (stops w).length = past.countP Applied.ends := by
  induction h with
  | new config loader presenter => exact ⟨rfl, rfl⟩
  | @perform past w c reply front now op returned ih =>
    obtain ⟨hstarts, hstops⟩ := perform_filed front.reached.steady.1 op _ returned
    rw [starts_append, stops_append, List.length_append, List.length_append, ih.1, ih.2, hstarts, hstops,
      List.countP_append, List.countP_append, List.countP_singleton, List.countP_singleton]
    constructor <;> split <;> rfl
  | poll front now ih => exact ih
  | aside front note silent ih =>
    obtain ⟨hstarts, hstops⟩ : Uneventful ([.noted note] : List (Entry I)) := uneventful_noted silent
    rw [starts_append, stops_append, hstarts, hstops, List.append_nil, List.append_nil]
    exact ih

/-! ## Trails -/

/-- the log in `w` is a trail of what was announced and called -/
structure Trail (w : List (Entry I)) : Prop where
  /-- the changes of phase on record are those from each announced phase to the next, from `idle` on -/
  transitions : transitions w = Phase.idle.changes (announced (notices w))
  /-- a record about a session has the number of the one that started last, and none comes before the first start -/
  correlated : ∀ front note back field, records w = front ++ note :: back → note.session? = some field →
    ∃ n, field = some n ∧ ((front ++ [note]).filterMap Note.started?).getLast? = some n
  /-- each halt that an interpreter answered with is on record once, as what it was -/
  endings : endings w = (halts w).map Halt.ending
  /-- sessions are numbered in the order of their starts -/
  numbered : starts w = List.range' 1 (starts w).length
  /-- a program that got past its check began a session, but for the last one, which may have broken down before -/
  begun : (starts w).length ≤ accepted w ∧ accepted w ≤ (starts w).length + 1
  /-- an interpreter that was brought to its origin is on record, with the start or the stop of its session -/
  reset : resets w = (starts w).length + (stops w).length

omit [Interpreter I] [Presenter P] [Loader L I] in
theorem Tells.correlated_at {q : Phase} {t : Option Nat} (h : Tells .idle none w q t) {front back : List Note} {note : Note}
    {field : Option Nat} (hw : records w = front ++ note :: back) (hfield : note.session? = some field) :
    ∃ n, field = some n ∧ ((front ++ [note]).filterMap Note.started?).getLast? = some n := by
  obtain ⟨hsome, hlatest⟩ := h.correlated.field_eq hw hfield
  obtain ⟨n, rfl⟩ := Option.isSome_iff_exists.1 hsome
  rw [latestStart, Option.or_none] at hlatest
  exact ⟨n, rfl, hlatest.symm⟩

theorem Logged.trail (h : Logged past w c) : Trail w := by
  have hnumbers := h.numbers
  have hlength : (starts w).length = accepted w := by
    rw [hnumbers.starts, List.length_range']
  refine ⟨h.tells.transitions, ?_, h.tells.endings, ?_, ?_, hnumbers.resets⟩
  · intro front note back field hw hfield
    exact h.tells.correlated_at hw hfield
  · rw [hlength]
    exact hnumbers.starts
  · omega

/-- what is on record where an operation breaks down -/
theorem Logged.breakdown_trail (h : Logged past w c) {given : Option String} (hb : Breakdown now given c j) :
    Trail (w ++ j) := by
  have hsteady := h.reached.steady.1
  obtain ⟨q, t, htells⟩ := hb.tells hsteady
  have hall := h.tells.append htells
  obtain ⟨front, d, last, hfront, hlast, rfl⟩ := hb
  have hnumbers := h.numbers.append hfront.numbers
  obtain ⟨hnone, hone, hresets⟩ := hlast.numbers
  have hstarts : starts (w ++ (front ++ last)) = starts (w ++ front) := by
    rw [← List.append_assoc, starts_append, hnone, List.append_nil]
  have hlength : (starts (w ++ front)).length = accepted (w ++ front) := by
    rw [hnumbers.starts, List.length_range']
  refine ⟨hall.transitions, ?_, hall.endings, ?_, ?_, ?_⟩
  · intro front note back field hw hfield
    exact hall.correlated_at hw hfield
  · rw [hstarts, hlength]
    exact hnumbers.starts
  · rw [hstarts, ← List.append_assoc, accepted_append]
    omega
  · rw [hstarts, ← List.append_assoc, resets_append, stops_append, hnumbers.resets, hresets, List.length_append]
    omega

/-- the log in `w` is the trail of all that was done with `c`, and it says which session `c` is in -/
structure Audited (past : List Applied) (w : List (Entry I)) (c : Controller I L P) : Prop extends Trail w where
  session : (starts w).getLast? = c.session
  /-- each program that got past its check began a session -/
  accepted : (starts w).length = accepted w
  begins : (starts w).length = past.countP Applied.begins
  ends : (stops w).length = past.countP Applied.ends

theorem Logged.audit (h : Logged past w c) : Audited past w c where
  toTrail := h.trail
  session := by
    have hsession := h.tells.session
    rwa [latestStart, Option.or_none] at hsession
  accepted := by rw [h.numbers.starts, List.length_range']
  begins := h.counted.1
  ends := h.counted.2

end Controller

namespace Session

open Controller (Logged Audited Trail Breakdown)

variable {I L P : Type} [Interpreter I] [Loader L I] [Presenter P] {c : Controller I L P} {s t u : Session I L P}
  {past : List Applied} {w : List (Entry I)} {as bs : List Act} {es fs : List Command} {now : Instant}

/-- what happened in the task, without the times -/
def told (s : Session I L P) : List (Entry I) := s.record.map Timed.what

/-- what is known of a session's record: where the task is in good order it is a log of its acts, after `w`; and where it
broke down it is a trail -/
structure Tracked (past : List Applied) (w : List (Entry I)) (as : List Act) (s : Session I L P) : Prop where
  whole : s.status ≠ .crashed → ∃ since, since.map Applied.asked = as.map Act.asked ∧
    Logged (past ++ since) (w ++ s.told) s.controller
  broken : s.status = .crashed → Trail (w ++ s.told)

omit [Interpreter I] [Loader L I] [Presenter P] in
theorem map_what (now : Instant) (j : List (Entry I)) : (j.map (Timed.mk now)).map Timed.what = j := by
  rw [List.map_map]
  exact List.map_id j

theorem failures_silent (intent : Intent) (result : Except Error Unit) :
    ∀ n ∈ failures intent result, n.session? = none := by
  cases result <;> simp [failures, Note.session?]

/-- an act that the task applies is on record as one operation more, or as the breakdown of the task -/
theorem tracked_act {act : Act} {since : List Applied} (hsince : since.map Applied.asked = as.map Act.asked)
    (h : Logged (past ++ since) (w ++ s.told) (s.atHand act))
    (hbroke : (s.applying act).value = none → t.status = .crashed ∧ t.told = s.told ++ (s.applying act).journal)
    (hdone : ∀ reply, (s.applying act).value = some reply → t.status = .alive ∧
      t.controller = (s.applying act).state ∧ ∃ notes : List Note, (∀ n ∈ notes, n.session? = none) ∧
        t.told = s.told ++ ((s.applying act).journal ++ notes.map .noted)) :
    Tracked past w (as ++ [act]) t := by
  cases hv : (s.applying act).value with
  | none =>
    obtain ⟨hcrashed, htold⟩ := hbroke hv
    have hbreak : Breakdown act.asked.1 act.asked.2.input? (s.atHand act) (s.applying act).journal :=
      Controller.perform_breaks h.reached.steady.1 act.asked.2 hv
    constructor
    · intro hwhole
      exact absurd hcrashed hwhole
    · intro _
      rw [htold, ← List.append_assoc]
      exact h.breakdown_trail hbreak
  | some reply =>
    obtain ⟨halive, hcontroller, notes, hsilent, htold⟩ := hdone reply hv
    have hnext := (h.perform act.asked.1 act.asked.2 hv).asides hsilent
    constructor
    · intro _
      rw [hcontroller, htold, ← List.append_assoc, ← List.append_assoc]
      rw [List.append_assoc past] at hnext
      refine ⟨_, ?_, hnext⟩
      rw [List.map_append, List.map_append, hsince]
      rfl
    · intro hcrashed
      exact absurd (halive.symm.trans hcrashed) (by decide)

/-- a command that the task serves -/
theorem serve_tracked {command : Command} {rest : List Command} {since : List Applied} (status : s.status = .alive)
    (hsince : since.map Applied.asked = as.map Act.asked) (h : Logged (past ++ since) (w ++ s.told) s.controller) :
    Tracked past w (as ++ [.dispatch now command]) ({ s with inbox := rest }.serve now command) := by
  have happlying := applying_dispatch now command s
  refine tracked_act hsince h ?_ ?_
  · intro hnone
    rw [happlying, Option.map_eq_none_iff] at hnone
    rw [happlying, serve_none (s := { s with inbox := rest }) hnone]
    refine ⟨rfl, ?_⟩
    rw [told, List.map_append, map_what]
    rfl
  · intro reply hreply
    rw [happlying] at hreply
    obtain ⟨result, hresult, -⟩ := Option.map_eq_some_iff.1 hreply
    rw [happlying, serve_some (s := { s with inbox := rest }) hresult]
    refine ⟨status, rfl, _, failures_silent command.intent result, ?_⟩
    rw [told, List.map_append, List.map_append, map_what, remarks, map_what]
    rfl

/-- a tick that the task takes -/
theorem serveTick_tracked {timer : Timer} {since : List Applied} (status : s.status = .alive)
    (poll : (s.controller.timer.poll now).2 = timer) (hsince : since.map Applied.asked = as.map Act.asked)
    (h : Logged (past ++ since) (w ++ s.told) s.controller) :
    Tracked past w (as ++ [.tick now]) (s.serveTick now timer) := by
  have happlying := applying_tick now s
  rw [poll] at happlying
  refine tracked_act hsince (h.poll now) ?_ ?_
  · intro hnone
    rw [happlying, Option.map_eq_none_iff] at hnone
    rw [happlying, serveTick_none hnone]
    refine ⟨rfl, ?_⟩
    rw [told, List.map_append, map_what]
    rfl
  · intro reply hreply
    rw [happlying] at hreply
    obtain ⟨outcome, houtcome, -⟩ := Option.map_eq_some_iff.1 hreply
    rw [happlying, serveTick_some houtcome]
    refine ⟨status, rfl, [], List.forall_mem_nil _, ?_⟩
    rw [told, List.map_append, map_what, List.map_nil, List.append_nil]
    rfl

/-- what a turn of the task does to the record -/
theorem Turned.tracked (hturn : Turned now s bs t) (h : Tracked past w as s) : Tracked past w (as ++ bs) t := by
  have hsame : Tracked past w (as ++ []) s := by rwa [List.append_nil]
  have hgoing : s.status = .alive → s.status ≠ .crashed := fun halive => by rw [halive]; decide
  cases hturn with
  | idle status => exact hsame
  | finish status reason =>
    obtain ⟨since, hsince, hlog⟩ := hsame.whole (hgoing status)
    have htold : (s.finish now).told = s.told ++ [.noted (.taskFinished s.controller.phase)] := by
      rw [told, told, Session.finish, close, write, List.map_append]
      rfl
    constructor
    · intro _
      refine ⟨since, hsince, ?_⟩
      rw [htold, ← List.append_assoc]
      exact hlog.aside _ rfl
    · intro hcrashed
      cases hcrashed
  | serve status going inbox =>
    obtain ⟨since, hsince, hlog⟩ := h.whole (hgoing status)
    exact serve_tracked status hsince hlog
  | tick status going inbox held poll =>
    obtain ⟨since, hsince, hlog⟩ := h.whole (hgoing status)
    exact serveTick_tracked status (by rw [poll]) hsince hlog
  | overflow status going inbox held poll =>
    obtain ⟨since, -, hlog⟩ := hsame.whole (hgoing status)
    constructor
    · intro hwhole
      exact absurd rfl hwhole
    · intro _
      exact hlog.trail
  | park status going inbox held =>
    obtain ⟨since, hsince, hlog⟩ := hsame.whole (hgoing status)
    constructor
    · intro _
      exact ⟨since, hsince, hlog.poll now⟩
    · intro hcrashed
      exact absurd hcrashed (hgoing status)

theorem Step.tracked (hstep : Step s bs es t) (h : Tracked past w as s) : Tracked past w (as ++ bs) t := by
  have hsame : Tracked past w (as ++ []) s := by rwa [List.append_nil]
  cases hstep with
  | turn now => exact (turn_turned now s).tracked h
  | _ => exact ⟨hsame.whole, hsame.broken⟩

/-- **The record of a session is a log of its acts**, up to where the task breaks down. -/
theorem Runs.tracked (h : Runs s as es t) (hs : s.status = .alive) (hlog : Logged past (w ++ s.told) s.controller) :
    Tracked past w as t := by
  induction h with
  | refl =>
    constructor
    · intro _
      exact ⟨[], rfl, by rwa [List.append_nil]⟩
    · intro hcrashed
      exact absurd (hs.symm.trans hcrashed) (by decide)
  | snoc _ last ih => exact last.tracked ih

end Session

namespace Controller

open Session (Runs spawn?)

variable {I L P : Type} [Interpreter I] [Loader L I] [Presenter P] {c : Controller I L P} {past : List Applied}
  {w : List (Entry I)}

/-- **The log is an audit trail.** Whatever has been done with a new controller, its log is the trail of that. The next
operation puts the session that it begins and the one that it ends on record, once each; where it breaks down the log is a
trail up to there. And so is the record of a session that the controller is handed over to. -/
theorem audited_of_logged (h : Logged past w c) :
    Audited past w c ∧
      (∀ now op,
        ((perform now op : Drive I L P Reply).Yields c fun reply d j => Filed c (applied now op reply c d) j) ∧
          (perform now op : Drive I L P Reply).Leaves c fun j => Trail (w ++ j)) ∧
      ∀ s t as es, spawn? c = some s → Runs s as es t →
        (t.status ≠ .crashed → ∃ since, since.map Applied.asked = as.map Act.asked ∧
          Audited (past ++ since) (w ++ t.told) t.controller) ∧
        (t.status = .crashed → Trail (w ++ t.told)) := by
  have hsteady := h.reached.steady.1
  refine ⟨h.audit, ?_, ?_⟩
  · intro now op
    refine ⟨perform_filed hsteady op, ?_⟩
    intro hnone
    exact h.breakdown_trail (perform_breaks hsteady op hnone)
  · intro s t as es hs hrun
    obtain rfl := Session.spawn?_eq hs
    obtain ⟨hwhole, hbroken⟩ := hrun.tracked rfl (by simpa [Session.told] using h)
    refine ⟨?_, hbroken⟩
    intro hgoing
    obtain ⟨since, hsince, hlog⟩ := hwhole hgoing
    exact ⟨since, hsince, hlog.audit⟩

/-- a restart over a live session, a fault, a stop that puts the controller back, and a third session that completes; then
the controller is handed over, and the task's session comes to an internal fault -/
theorem audited_of_logged_restarted :
    ∃ (past : List Applied) (w : List (Entry Recital)) (c : Controller Recital (List Recital) Unit),
      Logged past w c ∧ Audited past w c ∧
        past.map Applied.asked = [(0, .run), (1, .run), (2, .tick), (3, .stop), (4, .firstStep)] ∧
        starts w = [1, 2, 3] ∧ stops w = [some 1, some 2] ∧
        endings w = [("Program fault", .info, some (.program "tape end")), ("Program completed", .info, none)] ∧
        transitions w = [(.idle, .running), (.running, .stopped), (.stopped, .running), (.running, .faulted),
          (.faulted, .idle), (.idle, .steppingOnce), (.steppingOnce, .stopped)] ∧
        ∃ s t as es, spawn? c = some s ∧ Runs s as es t ∧
          (∃ since, since.map Applied.asked = as.map Act.asked ∧ Audited (past ++ since) (w ++ t.told) t.controller) ∧
          starts t.told = [4] ∧ endings t.told = [("Internal interpreter fault", .error, some (.internal "lost"))] := by
  let programs : List Recital := [{}, { steps := [([], .halt (.fault (.program "tape end")))] },
    { steps := [([], .halt .completion)] }, { steps := [([], .halt (.fault (.internal "lost")))] }]
  let ops : List (Instant × Operation) := [(0, .run), (1, .run), (2, .tick), (3, .stop), (4, .firstStep)]
  let config : Config := {}
  let c : Controller Recital (List Recital) Unit :=
    ((performAll ops : Drive Recital (List Recital) Unit (List Reply)) (ofConfig config programs ())).state
  obtain ⟨replies, hreplies⟩ := Option.isSome_iff_exists.1 (show
    ((performAll ops : Drive Recital (List Recital) Unit (List Reply)) (ofConfig config programs ())).value.isSome = true
    by decide)
  obtain ⟨past, hpast, hlog⟩ := logged_performAll (Logged.new config programs ()) ops hreplies
  obtain ⟨s', hs⟩ := Option.isSome_iff_exists.1 (show (spawn? c).isSome = true by decide)
  obtain rfl := Session.spawn?_eq hs
  let s : Session Recital (List Recital) Unit :=
    { controller := c, capacity := max c.config.channelSize.toNat 1, watch := { phase := c.phase } }
  have hrun := Session.runs_request (s := s) 5 .firstStep rfl
  obtain ⟨haudited, -, hsessions⟩ := audited_of_logged hlog
  obtain ⟨hwhole, -⟩ := hsessions _ _ _ _ hs hrun
  refine ⟨_, _, _, hlog, haudited, hpast, ?_, ?_, ?_, ?_, _, _, _, _, hs, hrun, hwhole ?_, ?_, ?_⟩
  all_goals decide

end Controller

end StepControl

/-
Two sessions in step.

Whether the task asks its timer for a tick once or many times makes no difference, as long as no tick is taken: all that
asking does is to lay the interval down, and it lies where it would lie anyway (`Timer.laid`). So the timers of two sessions
go together when they are the same once they are laid down. Two controllers keep the same cadence (`InStep`) where their
timers go together in this way, and they agree in all that is seen but for the numbers of the interpreters.

One of the two sessions may have served more commands than the other (`Paired`). Its tickets are translated to those of the
other, where they have a counterpart; and starts that were refused to it alone may show in its record (`Without`).

Results:
- `Timer.poll_laid`: a timer answers the same whether its interval is laid down or not, also where it has a due time beyond
  the clock.
- `Controller.InStep.dispatch`, `Controller.InStep.tick`: controllers in step do the same for an intent and for a tick, and
  break down together.
- `Session.Paired.turn`: paired sessions take the same turns, and stay paired.
- `Session.Paired.settle`, `Session.Paired.sleep`, `Session.Paired.waitFor`, `Session.Paired.shutdown`: so they do however
  time passes, to the same instants, and in whatever way they end.
- `Session.Paired.symm`, `Session.Paired.trans`: pairs can be turned around and put together, where nothing was refused to
  one alone.

Premises: what a loader builds depends on the text alone (`Textual`), so that a loader call more or less does not show
later. The interpreter may break down.
-/
import StepControl.Proofs.Alike
import StepControl.Proofs.Complaints
import StepControl.Proofs.Settling

namespace StepControl

open StepControl.Action

/-! ## Timers that are laid down -/

namespace Timer

variable {t u : Timer} {now : Instant}

/-- the timer with its interval laid down -/
def laid (t : Timer) : Timer :=
  { t with schedule := t.schedule.map fun s => { s with interval := s.interval? t.delay } }

@[simp] theorem laid_delay (t : Timer) : t.laid.delay = t.delay := rfl

@[simp] theorem laid_isActive (t : Timer) : t.laid.isActive = t.isActive := by
  simp [laid, isActive]

/-- an interval that is laid down stays where it is -/
theorem interval?_laid (delay : Delay) (s : Schedule) :
    Schedule.interval? delay { s with interval := s.interval? delay } = s.interval? delay := by
  cases hi : s.interval? delay with
  | some i => rfl
  | none =>
    unfold Schedule.interval? at hi ⊢
    cases hs : s.interval with
    | some i => simp [hs] at hi
    | none => simpa [hs] using hi

theorem due?_laid (t : Timer) : t.laid.due? = t.due? := by
  unfold due? laid
  cases t.schedule with
  | none => rfl
  | some s =>
    simp only [Option.map_some, Option.bind_some]
    rw [interval?_laid]

theorem laid_schedule {s : Schedule} (hs : t.schedule = some s) :
    t.laid.schedule = some { s with interval := s.interval? t.delay } := by
  simp [laid, hs]

/-- **A timer answers the same whether its interval is laid down or not.** -/
theorem poll_laid (now : Instant) (t : Timer) : t.laid.poll now = ((t.poll now).1, (t.poll now).2.laid) := by
  have hanswered := t.poll_answered now
  generalize t.poll now = p at hanswered ⊢
  cases hanswered with
  | off hoff => simp [laid, poll, hoff]
  | @unlaid s armed unlaid => exact poll_overflow (laid_schedule armed) ((interval?_laid _ s).trans unlaid)
  | @ends s i armed laid due ends => exact poll_ends (laid_schedule armed) ((interval?_laid _ s).trans laid) due ends
  | @pending s i armed laid early =>
    rw [poll_pending (laid_schedule armed) ((interval?_laid _ s).trans laid) early]
    rfl
  | @ready s i armed laid due goes =>
    rw [poll_ready (laid_schedule armed) ((interval?_laid _ s).trans laid) due goes]
    rfl

/-- asking for a tick lays the interval down, and does nothing else where no tick is due -/
theorem laid_poll (h : (t.poll now).1 ≠ .ready) : (t.poll now).2.laid = t.laid := by
  have hanswered := t.poll_answered now
  generalize t.poll now = p at hanswered h ⊢
  cases hanswered with
  | ready => exact absurd rfl h
  | pending armed laid early =>
    simp only [Timer.laid, armed, Option.map_some, laid]
    rfl
  | _ => rfl

theorem delay_eq (h : t.laid = u.laid) : t.delay = u.delay := by
  rw [← laid_delay t, h, laid_delay]

theorem laid_stop (h : t.laid = u.laid) : t.stop.laid = u.stop.laid := by
  have hdelay := delay_eq h
  simp [stop, laid, hdelay]

theorem laid_start (h : t.laid = u.laid) (now : Instant) : (t.start now).laid = (u.start now).laid := by
  have hdelay := delay_eq h
  simp [start, laid, hdelay]

theorem laid_setDelay (h : t.laid = u.laid) (now : Instant) (delay : Delay) :
    (t.setDelay now delay).laid = (u.setDelay now delay).laid := by
  have hactive : t.isActive = u.isActive := by rw [← laid_isActive t, h, laid_isActive]
  unfold setDelay
  rw [hactive]
  split
  · exact laid_start rfl now
  · next hoff =>
    have hnone : ∀ v : Timer, v.isActive = u.isActive → v.schedule = none := by
      intro v hv
      rw [← hv] at hoff
      simpa [isActive] using hoff
    simp [laid, hnone t hactive, hnone u rfl]

theorem poll_eq (h : t.laid = u.laid) (now : Instant) :
    (t.poll now).1 = (u.poll now).1 ∧ (t.poll now).2.laid = (u.poll now).2.laid := by
  have hpoll := poll_laid now t
  rw [h, poll_laid] at hpoll
  exact ⟨(congrArg Prod.fst hpoll).symm, (congrArg Prod.snd hpoll).symm⟩

theorem due?_eq (h : t.laid = u.laid) : t.due? = u.due? := by
  rw [← due?_laid t, h, due?_laid]

theorem backlog_eq (h : t.laid = u.laid) (now : Instant) : t.backlog now = u.backlog now := by
  have hdelay := delay_eq h
  rw [backlog, backlog, due?_eq h, hdelay]

end Timer

/-! ## Controllers that keep the same cadence -/

/-- an entry without the number of the interpreter; log records are left out -/
def Entry.unnumbered {I : Type} : Entry I → Option (Entry I)
  | .loaded _ text => some (.loaded 0 text)
  | .called _ before call => some (.called 0 before call)
  | .shown notice => some (.shown notice)
  | .noted _ => none

section

variable {I L P : Type} [Interpreter I] [Loader L I] [Presenter P] {build : String → I}

/-- what the loader builds depends on the text alone -/
def Textual (build : String → I) (l : L) : Prop := ∀ texts, builds l texts = texts.map build

omit [Interpreter I] in
theorem Textual.built {l : L} (h : Textual build l) (text : String) : (Loader.load l text).1 = build text :=
  List.head_eq_of_cons_eq (h [text])

omit [Interpreter I] in
theorem Textual.rest {l : L} (h : Textual build l) (text : String) : Textual build (Loader.load l text).2 :=
  fun texts => List.tail_eq_of_cons_eq (h (text :: texts))

/-- the mirror in which timers go together when they are the same once they are laid down -/
def cadence (build : String → I) : Mirror I L I L (Entry I) where
  phases := Eq
  timers t u := t.laid = u.laid
  instants := Eq
  faults := Eq
  machines := Eq
  serials _ _ := True
  loaders l l' := Textual build l ∧ Textual build l'
  sees := Entry.unnumbered
  sees' := Entry.unnumbered
  phases_still _ := rfl
  phases_apart h := Or.inl h
  timers_stop h := Timer.laid_stop h
  timers_start h hnow := hnow ▸ Timer.laid_start h _
  faults_refl _ := rfl
  serials_succ _ := trivial
  sees_noted _ := rfl
  sees_noted' _ := rfl
  sees_shown _ := rfl
  sees_loaded _ _ := rfl
  sees_called hmachine _ hcall := by rw [hmachine, hcall.eq]; rfl
  together := together_same (fun text h => (h.1.built text).trans (h.2.built text).symm)
    fun text h => ⟨h.1.rest text, h.2.rest text⟩

theorem cadence_plain : (cadence build : Mirror I L I L (Entry I)).Plain where
  phases := Iff.rfl
  instants _ := rfl
  setDelay now delay h := Timer.laid_setDelay h now delay

/-- two controllers keep the same cadence -/
abbrev InStep (build : String → I) (c d : Controller I L P) : Prop := (cadence build).Joins c d

variable {c d e : Controller I L P} {now : Instant}

omit [Presenter P] in
theorem InStep.refl (h : Textual build c.loader) : InStep build c c where
  phase := rfl
  timer := rfl
  loader := ⟨h, h⟩
  loads := trivial
  live := by
    cases c.live with
    | none => exact .none
    | some inst => exact .some ⟨rfl, trivial⟩
  program := rfl
  optimize := rfl
  buffer := rfl
  gate := rfl
  errorShown := rfl

omit [Presenter P] in
/-- two controllers that keep the cadence of a third keep each other's -/
theorem InStep.through (h : InStep build c e) (h' : InStep build d e) : InStep build c d where
  phase := Eq.trans h.phase (Eq.symm h'.phase)
  timer := Eq.trans h.timer (Eq.symm h'.timer)
  loader := ⟨h.loader.1, h'.loader.1⟩
  loads := trivial
  live := by
    rcases h.live_cases with ⟨hc, he⟩ | ⟨inst, inst', hc, he, htwins⟩
    · rcases h'.live_cases with ⟨hd, -⟩ | ⟨_, _, -, he', -⟩
      · rw [hc, hd]
        exact .none
      · simp [he] at he'
    · rcases h'.live_cases with ⟨-, he'⟩ | ⟨inst'', _, hd, he', htwins'⟩
      · simp [he] at he'
      · obtain rfl : inst' = _ := Option.some.inj (he.symm.trans he')
        rw [hc, hd]
        exact .some ⟨Eq.trans htwins.machine (Eq.symm htwins'.machine), trivial⟩
  program := h.program.trans h'.program.symm
  optimize := h.optimize.trans h'.optimize.symm
  buffer := h.buffer.trans h'.buffer.symm
  gate := h.gate.trans h'.gate.symm
  errorShown := h.errorShown.trans h'.errorShown.symm

omit [Presenter P] in
theorem InStep.symm (h : InStep build c d) : InStep build d c := (InStep.refl h.loader.2).through h

omit [Presenter P] in
/-- asking both for a tick -/
theorem InStep.polled (h : InStep build c d) (now : Instant) :
    InStep build { c with timer := (c.timer.poll now).2 } { d with timer := (d.timer.poll now).2 } :=
  { h with timer := (Timer.poll_eq h.timer now).2 }

omit [Presenter P] in
/-- asking one of them for a tick that is not due -/
theorem InStep.asked (h : InStep build c d) (hnot : (c.timer.poll now).1 ≠ .ready) :
    InStep build { c with timer := (c.timer.poll now).2 } d :=
  { h with timer := (Timer.laid_poll hnot).trans h.timer }

/-- **Controllers that keep the same cadence do the same for an intent**, and go on keeping it. -/
theorem InStep.dispatch (h : InStep build c d) (now : Instant) (intent : Intent) :
    (Controller.dispatch now intent c).journal.filterMap Entry.unnumbered =
        (Controller.dispatch now intent d).journal.filterMap Entry.unnumbered ∧
      (((Controller.dispatch now intent c).value = none ∧ (Controller.dispatch now intent d).value = none) ∨
        ∃ result, (Controller.dispatch now intent c).value = some result ∧
          (Controller.dispatch now intent d).value = some result ∧
          InStep build (Controller.dispatch now intent c).state (Controller.dispatch now intent d).state) := by
  have hmirrors : (cadence build).Mirrors Eq (Controller.dispatch now intent : Drive I L P _)
      (Controller.dispatch now intent : Drive I L P _) := Controller.mirrors_dispatch cadence_plain intent
  obtain ⟨hjournal, hvalue⟩ := hmirrors c d h
  refine ⟨hjournal, ?_⟩
  generalize (Controller.dispatch now intent c).value = v at hvalue ⊢
  generalize (Controller.dispatch now intent d).value = w at hvalue ⊢
  cases hvalue with
  | none => exact Or.inl ⟨rfl, rfl⟩
  | some hpair =>
    obtain ⟨rfl, hjoins⟩ := hpair
    exact Or.inr ⟨_, rfl, rfl, hjoins⟩

/-- the same for a tick -/
theorem InStep.tick (h : InStep build c d) (now : Instant) :
    (Controller.tick now c).journal.filterMap Entry.unnumbered =
        (Controller.tick now d).journal.filterMap Entry.unnumbered ∧
      (((Controller.tick now c).value = none ∧ (Controller.tick now d).value = none) ∨
        ∃ outcome outcome', (Controller.tick now c).value = some outcome ∧
          (Controller.tick now d).value = some outcome' ∧
          InStep build (Controller.tick now c).state (Controller.tick now d).state) := by
  have hmirrors : (cadence build).Mirrors _ (Controller.tick now : Drive I L P _) (Controller.tick now : Drive I L P _) :=
    Controller.mirrors_tick cadence_plain
  obtain ⟨hjournal, hvalue⟩ := hmirrors c d h
  refine ⟨hjournal, ?_⟩
  generalize (Controller.tick now c).value = v at hvalue ⊢
  generalize (Controller.tick now d).value = w at hvalue ⊢
  cases hvalue with
  | none => exact Or.inl ⟨rfl, rfl⟩
  | some hpair => exact Or.inr ⟨_, _, rfl, rfl, hpair.2⟩

end

/-! ## Records with more refused starts -/

section

variable {I : Type} {j k : List (Timed (Entry I))}

def trace (record : List (Timed (Entry I))) : List (Timed (Entry I)) :=
  record.filterMap fun e => e.what.unnumbered.map (Timed.mk e.moment)

@[simp] theorem trace_append (j k : List (Timed (Entry I))) : trace (j ++ k) = trace j ++ trace k :=
  List.filterMap_append

theorem trace_timed (now : Instant) (j : List (Entry I)) :
    trace (j.map (Timed.mk now)) = (j.filterMap Entry.unnumbered).map (Timed.mk now) := by
  rw [trace, List.filterMap_map, List.map_filterMap]
  rfl

@[simp] theorem trace_noted (now : Instant) (note : Note) :
    trace [(⟨now, .noted note⟩ : Timed (Entry I))] = [] := rfl

@[simp] theorem trace_remarks (now : Instant) (notes : List Note) : trace (Session.remarks (I := I) now notes) = [] := by
  simp [trace, Session.remarks, Entry.unnumbered]

/-- what a start shows that is refused: one call of the loader, one check, one announcement -/
def refusedStart (now : Instant) (text : String) (machine : I) (message : String) : List (Timed (Entry I)) :=
  [⟨now, .loaded 0 text⟩, ⟨now, .called 0 machine (.check (some (.rejected message)))⟩, ⟨now, .shown (.error message)⟩]

/-- the first is the second but for refused starts, which gave these messages -/
inductive Without : List String → List (Timed (Entry I)) → List (Timed (Entry I)) → Prop where
  | nil : Without [] [] []
  | same (e : Timed (Entry I)) {messages : List String} {j k : List (Timed (Entry I))} (rest : Without messages j k) :
      Without messages (e :: j) (e :: k)
  | refused (now : Instant) (text : String) (machine : I) (message : String) {messages : List String}
      {j k : List (Timed (Entry I))} (rest : Without messages j k) :
      Without (message :: messages) (refusedStart now text machine message ++ j) k

namespace Without

variable {messages messages' : List String} {j' k' : List (Timed (Entry I))}

theorem refl (j : List (Timed (Entry I))) : Without [] j j := by
  induction j with
  | nil => exact .nil
  | cons e j ih => exact .same e ih

theorem append (h : Without messages j k) (h' : Without messages' j' k') :
    Without (messages ++ messages') (j ++ j') (k ++ k') := by
  induction h with
  | nil => exact h'
  | same e _ ih => exact .same e ih
  | refused now text machine message _ ih =>
    rw [List.append_assoc]
    exact .refused now text machine message ih

theorem eq (h : Without [] j k) : j = k := by
  generalize hm : ([] : List String) = messages at h
  induction h with
  | nil => rfl
  | same e _ ih => rw [ih hm]
  | refused => exact absurd hm (by simp)

/-- records go on in step where the same is seen of what comes -/
theorem snoc (h : Without messages (trace j) (trace k)) {l m : List (Entry I)}
    (hlm : l.filterMap Entry.unnumbered = m.filterMap Entry.unnumbered) (now : Instant) :
    Without messages (trace (j ++ l.map (Timed.mk now))) (trace (k ++ m.map (Timed.mk now))) := by
  rw [trace_append, trace_append, trace_timed, trace_timed, hlm]
  simpa using h.append (.refl _)

end Without

end

/-! ## Sessions in step -/

/-- the same intent, where `r` translates the tickets -/
structure Command.Same (r : Nat → Option Nat) (command command' : Command) : Prop where
  ticket : r command.ticket = some command'.ticket
  intent : command.intent = command'.intent

namespace Session

variable {I L P : Type} [Interpreter I] [Loader L I] {build : String → I}

/-- replies to the tickets that have a translation -/
def translated (r : Nat → Option Nat) (replies : List (Nat × Except Error Unit)) : List (Nat × Except Error Unit) :=
  replies.filterMap fun e => (r e.1).map fun ticket => (ticket, e.2)

/-- the messages of the starts that were refused, among the replies to tickets without a translation -/
def refusals (r : Nat → Option Nat) (replies : List (Nat × Except Error Unit)) : List String :=
  replies.filterMap fun e => if r e.1 = none then (Reply.result e.2).refusal? else none

@[simp] theorem refusals_append (r : Nat → Option Nat) (replies more : List (Nat × Except Error Unit)) :
    refusals r (replies ++ more) = refusals r replies ++ refusals r more := List.filterMap_append

/-- the sessions are in step, where `r` translates the tickets of the first; tickets without a translation were given for
commands that the second session never saw, and all that shows of them are starts that were refused -/
structure Paired (build : String → I) (r : Nat → Option Nat) (s b : Session I L P) : Prop where
  controller : s.status ≠ .crashed → InStep build s.controller b.controller
  capacity : s.capacity = b.capacity
  room : 0 < s.capacity
  status : s.status = b.status
  inbox : List.Forall₂ (Command.Same r) s.inbox b.inbox
  waiting : List.Forall₂ (Command.Same r) s.waiting b.waiting
  replies : translated r s.replies = b.replies
  watch : s.watch = b.watch
  seen : s.seen = b.seen
  cancelled : s.cancelled = b.cancelled
  abandoned : s.abandoned = b.abandoned
  published : s.status = .alive → s.watch.phase = s.controller.phase
  record : Without (refusals r s.replies) (trace s.record) (trace b.record)

variable [Presenter P] {r : Nat → Option Nat} {s b d : Session I L P} {now limit : Instant}

omit [Presenter P] in
theorem Paired.inStep (h : Paired build r s b) (hs : s.status = .alive) : InStep build s.controller b.controller :=
  h.controller (by simp [hs])

omit [Presenter P] in
theorem Paired.isAlive_eq (h : Paired build r s b) : s.isAlive = b.isAlive := by
  simp only [isAlive, h.status]

omit [Presenter P] in
theorem Paired.inbox_cases (h : Paired build r s b) :
    (s.inbox = [] ∧ b.inbox = []) ∨ ∃ command rest command' rest', s.inbox = command :: rest ∧
      b.inbox = command' :: rest' ∧ Command.Same r command command' ∧ List.Forall₂ (Command.Same r) rest rest' := by
  have hinbox := h.inbox
  generalize s.inbox = inbox at hinbox ⊢
  generalize b.inbox = inbox' at hinbox ⊢
  cases hinbox with
  | nil => exact Or.inl ⟨rfl, rfl⟩
  | cons hsame hrest => exact Or.inr ⟨_, _, _, _, rfl, rfl, hsame, hrest⟩

omit [Presenter P] in
/-- the task of both is over -/
theorem Paired.close (h : Paired build r s b) (status : Status) (hstatus : status ≠ .alive)
    (hcontroller : status ≠ .crashed → InStep build s.controller b.controller) :
    Paired build r (s.close status) (b.close status) :=
  { h with
    controller := hcontroller
    status := rfl
    inbox := .nil
    waiting := .nil
    published := fun halive => absurd halive hstatus }

omit [Presenter P] in
theorem Paired.finish (h : Paired build r s b) (hs : s.status = .alive) (now : Instant) :
    Paired build r (s.finish now) (b.finish now) := by
  refine Paired.close ?_ .finished (by simp) fun _ => h.inStep hs
  exact { h with record := by simpa [write] using h.record }

/-- **A command that both serve comes to the same.** -/
theorem Paired.serve {command command' : Command} (h : Paired build r s b) (hs : s.status = .alive)
    (hsame : Command.Same r command command') (now : Instant) : Paired build r (s.serve now command) (b.serve now command') := by
  obtain ⟨ticket, intent⟩ := command
  obtain ⟨ticket', intent'⟩ := command'
  obtain ⟨hticket, rfl⟩ : r ticket = some ticket' ∧ intent = intent' := ⟨hsame.ticket, hsame.intent⟩
  obtain ⟨hjournal, hvalue⟩ := (h.inStep hs).dispatch now intent
  have hrecord := Without.snoc h.record hjournal now
  rcases hvalue with ⟨hc, hd⟩ | ⟨result, hc, hd, hjoins⟩
  · rw [serve_none hc, serve_none hd]
    exact
      { h with
        controller := fun hne => absurd rfl hne
        status := rfl
        inbox := .nil
        waiting := .nil
        published := fun halive => by simp at halive
        record := hrecord }
  · rw [serve_some hc, serve_some hd]
    exact
      { h with
        controller := fun _ => hjoins
        replies := by simp [translated, ← h.replies, hticket]
        watch := by rw [h.watch, show _ = _ from hjoins.phase]
        published := fun _ => Watch.publish_phase _ _
        record := by
          have hanswer : refusals r [(ticket, result)] = [] := by simp [refusals, hticket]
          rw [refusals_append, hanswer, List.append_nil]
          simp only [← List.append_assoc, trace_append _ (remarks _ _), trace_remarks, List.append_nil]
          exact hrecord }

/-- a tick that both take comes to the same -/
theorem Paired.serveTick {timer timer' : Timer} (h : Paired build r s b) (hs : s.status = .alive)
    (htimer : timer.laid = timer'.laid) (now : Instant) :
    Paired build r (s.serveTick now timer) (b.serveTick now timer') := by
  have hjoins : InStep build { s.controller with timer } { b.controller with timer := timer' } :=
    { h.inStep hs with timer := htimer }
  obtain ⟨hjournal, hvalue⟩ := hjoins.tick now
  have hrecord := Without.snoc h.record hjournal now
  rcases hvalue with ⟨hc, hd⟩ | ⟨outcome, outcome', hc, hd, hend⟩
  · rw [serveTick_none hc, serveTick_none hd]
    exact
      { h with
        controller := fun hne => absurd rfl hne
        status := rfl
        inbox := .nil
        waiting := .nil
        published := fun halive => by simp at halive
        record := hrecord }
  · rw [serveTick_some hc, serveTick_some hd]
    exact
      { h with
        controller := fun _ => hend
        watch := by rw [h.watch, show _ = _ from hend.phase]
        published := fun _ => Watch.publish_phase _ _
        record := hrecord }

/-! ## Turns in step -/

/-- **Sessions in step take the same turns**, and stay in step. -/
theorem Paired.turn (h : Paired build r s b) (now : Instant) :
    (s.turn now).1 = (b.turn now).1 ∧ Paired build r (s.turn now).2 (b.turn now).2 := by
  by_cases hs : s.status = .alive
  case neg =>
    rw [turn_over hs, turn_over (h.status ▸ hs)]
    exact ⟨rfl, h⟩
  have hb : b.status = .alive := h.status ▸ hs
  cases hc : s.cancelled with
  | true =>
    rw [turn_cancelled hs hc, turn_cancelled hb (h.cancelled ▸ hc)]
    exact ⟨rfl, h.finish hs now⟩
  | false =>
    have hbc : b.cancelled = false := h.cancelled ▸ hc
    rcases h.inbox_cases with ⟨hi, hbi⟩ | ⟨command, rest, command', rest', hi, hbi, hsame, hrest⟩
    · cases ha : s.abandoned with
      | true =>
        rw [turn_letGo hs hc hi ha, turn_letGo hb hbc hbi (h.abandoned ▸ ha)]
        exact ⟨rfl, h.finish hs now⟩
      | false =>
        rw [turn_poll hs hc hi ha, turn_poll hb hbc hbi (h.abandoned ▸ ha)]
        have hin := h.inStep hs
        obtain ⟨hpoll, htimer⟩ := Timer.poll_eq hin.timer now
        have hparked : Paired build r { s with controller := { s.controller with timer := (s.controller.timer.poll now).2 } }
            { b with controller := { b.controller with timer := (b.controller.timer.poll now).2 } } :=
          { h with controller := fun _ => hin.polled now }
        generalize s.controller.timer.poll now = p at hpoll htimer hparked ⊢
        generalize b.controller.timer.poll now = q at hpoll htimer hparked ⊢
        obtain ⟨answer, timer⟩ := p
        obtain ⟨answer', timer'⟩ := q
        obtain rfl : answer = answer' := hpoll
        cases answer with
        | ready => exact ⟨rfl, h.serveTick hs htimer now⟩
        | overflow => exact ⟨rfl, h.close .crashed (by simp) fun hne => absurd rfl hne⟩
        | off => exact ⟨rfl, hparked⟩
        | pending due => exact ⟨rfl, hparked⟩
    · rw [turn_serve hs hc hi, turn_serve hb hbc hbi]
      have hnext : Paired build r { s with inbox := rest } { b with inbox := rest' } := { h with inbox := hrest }
      exact ⟨rfl, hnext.serve hs hsame now⟩

theorem Paired.turns (h : Paired build r s b) (now : Instant) (fuel : Nat) :
    Paired build r (s.turns now fuel) (b.turns now fuel) := by
  induction fuel generalizing s b with
  | zero => exact h
  | succ fuel ih =>
    obtain ⟨hmore, hturn⟩ := h.turn now
    unfold Session.turns
    generalize s.turn now = p at hmore hturn ⊢
    generalize b.turn now = q at hmore hturn ⊢
    obtain ⟨more, t⟩ := p
    obtain ⟨more', t'⟩ := q
    obtain rfl : more = more' := hmore
    cases more with
    | false => exact hturn
    | true => exact ih hturn

theorem Paired.work (h : Paired build r s b) (now : Instant) : Paired build r (s.work now) (b.work now) := by
  by_cases hs : s.status = .alive
  · have hfuel : s.inbox.length + s.controller.timer.backlog now + 1 = b.inbox.length + b.controller.timer.backlog now + 1 := by
      rw [h.inbox.length_eq, Timer.backlog_eq (h.inStep hs).timer now]
    unfold Session.work
    rw [hfuel]
    exact h.turns now _
  · unfold Session.work
    rw [turns_over hs, turns_over (h.status ▸ hs)]
    exact h

omit [Presenter P] in
theorem Paired.fillInbox (h : Paired build r s b) : Paired build r s.fillInbox b.fillInbox := by
  have hroom : s.capacity - s.inbox.length = b.capacity - b.inbox.length := by
    rw [h.capacity, h.inbox.length_eq]
  unfold Session.fillInbox
  rw [hroom]
  exact
    { h with
      inbox := List.rel_append h.inbox (List.forall₂_take _ h.waiting)
      waiting := List.forall₂_drop _ h.waiting }

theorem Paired.rounds (h : Paired build r s b) (now : Instant) (fuel : Nat) :
    Paired build r (s.rounds now fuel) (b.rounds now fuel) := by
  induction fuel generalizing s b with
  | zero => exact h
  | succ fuel ih =>
    have hround := h.fillInbox.work now
    have hdone : (s.fillInbox.work now).waiting = [] ↔ (b.fillInbox.work now).waiting = [] := by
      rw [← List.length_eq_zero_iff, ← List.length_eq_zero_iff, hround.waiting.length_eq]
    unfold Session.rounds
    dsimp only
    simp only [hdone]
    split
    · exact hround
    · exact ih hround

/-- **Sessions in step stay in step when they settle.** -/
theorem Paired.settle (h : Paired build r s b) (now : Instant) : Paired build r (s.settle now) (b.settle now) := by
  unfold Session.settle
  rw [h.waiting.length_eq]
  exact h.rounds now _

omit [Presenter P] in
theorem Paired.wake?_eq (h : Paired build r s b) : s.wake? = b.wake? := by
  unfold Session.wake? Session.due?
  refine congrArg (Option.map Instant.rounded) ?_
  rw [h.isAlive_eq]
  split
  case isTrue halive =>
    have hs : s.status = .alive := by rw [h.status]; simpa [isAlive] using halive
    exact Timer.due?_eq (h.inStep hs).timer
  case isFalse => rfl

/-- **Sessions in step stay in step as time passes**, to the same instant. -/
theorem Paired.runInstants (h : Paired build r s b) {stop : Session I L P → Bool}
    (hstop : ∀ {s b}, Paired build r s b → stop s = stop b) (limit : Instant) (fuel : Nat) (now : Instant) :
    (s.runInstants stop limit fuel now).1 = (b.runInstants stop limit fuel now).1 ∧
      Paired build r (s.runInstants stop limit fuel now).2 (b.runInstants stop limit fuel now).2 := by
  induction fuel generalizing now s b with
  | zero => exact ⟨rfl, h⟩
  | succ fuel ih =>
    have hsettled := h.settle now
    have hwake := hsettled.wake?_eq
    unfold Session.runInstants
    dsimp only
    rw [hstop hsettled, hwake]
    split
    · exact ⟨rfl, hsettled⟩
    · split
      · split
        · exact ih hsettled _
        · exact ⟨rfl, hsettled⟩
      · exact ⟨rfl, hsettled⟩

theorem Paired.sleep (h : Paired build r s b) (now limit : Instant) : Paired build r (s.sleep now limit) (b.sleep now limit) :=
  (h.runInstants (fun _ => rfl) limit _ now).2

omit [Presenter P] in
theorem Paired.look (h : Paired build r s b) :
    Paired build r { s with seen := s.watch.version } { b with seen := b.watch.version } :=
  { h with seen := congrArg Watch.version h.watch }

/-- sessions in step give the same answer to who waits for a phase, at the same instant -/
theorem Paired.waitFor (h : Paired build r s b) (target : Phase) (now limit : Instant) :
    (s.waitFor target now limit).1 = (b.waitFor target now limit).1 ∧
      (s.waitFor target now limit).2.1 = (b.waitFor target now limit).2.1 ∧
      Paired build r (s.waitFor target now limit).2.2 (b.waitFor target now limit).2.2 := by
  have hstop : ∀ {s b : Session I L P}, Paired build r s b →
      (s.watch.phase = target || !s.isAlive) = (b.watch.phase = target || !b.isAlive) := by
    intro s b h
    rw [h.watch, h.isAlive_eq]
  obtain ⟨hinstant, hran⟩ := h.runInstants hstop limit (limit - now + 1) now
  have hphase : s.watch.phase = b.watch.phase := congrArg Watch.phase h.watch
  unfold Session.waitFor
  dsimp only
  simp only [hphase, h.isAlive_eq]
  split
  · exact ⟨rfl, rfl, h.look⟩
  · split
    · exact ⟨rfl, rfl, h.look⟩
    · have hphase' := congrArg Watch.phase hran.watch
      have halive := hran.isAlive_eq
      unfold Session.runUntil
      simp only [hphase', halive]
      exact ⟨trivial, hinstant, hran.look⟩

theorem Paired.shutdown (h : Paired build r s b) (now : Instant) : Paired build r (s.shutdown now).2 (b.shutdown now).2 :=
  have hcancelled : Paired build r { s with cancelled := true } { b with cancelled := true } := { h with cancelled := rfl }
  hcancelled.settle now

theorem Paired.abandon (h : Paired build r s b) (now : Instant) : Paired build r (s.abandon now) (b.abandon now) :=
  have habandoned : Paired build r { s with abandoned := true } { b with abandoned := true } := { h with abandoned := rfl }
  habandoned.settle now

/-! ## Sessions in step, and what they have in common with themselves -/

theorem refusals_some (replies : List (Nat × Except Error Unit)) : refusals some replies = [] := by
  simp [refusals]

theorem translated_some (replies : List (Nat × Except Error Unit)) : translated some replies = replies := by
  simp [translated]

omit [Interpreter I] [Loader L I] [Presenter P] in
theorem forall₂_same_some {commands commands' : List Command} (h : List.Forall₂ (Command.Same some) commands commands') :
    commands = commands' := by
  induction h with
  | nil => rfl
  | @cons command command' rest rest' hsame _ ih =>
    have hcommand : command = command' := by
      cases command
      cases command'
      simpa using And.intro (Option.some.inj hsame.ticket) hsame.intent
    rw [hcommand, ih]

omit [Interpreter I] [Loader L I] [Presenter P] in
theorem forall₂_same_refl (commands : List Command) : List.Forall₂ (Command.Same some) commands commands :=
  List.forall₂_same.2 fun _ _ => ⟨rfl, rfl⟩

omit [Presenter P] in
/-- a session is in step with itself -/
theorem Paired.refl (hloader : s.status ≠ .crashed → Textual build s.controller.loader) (hroom : 0 < s.capacity)
    (hpublished : s.status = .alive → s.watch.phase = s.controller.phase) : Paired build some s s where
  controller hs := .refl (hloader hs)
  capacity := rfl
  room := hroom
  status := rfl
  inbox := forall₂_same_refl _
  waiting := forall₂_same_refl _
  replies := translated_some _
  watch := rfl
  seen := rfl
  cancelled := rfl
  abandoned := rfl
  published := hpublished
  record := refusals_some s.replies ▸ .refl _

omit [Presenter P] in
theorem Paired.left (h : Paired build r s b) : Paired build some s s :=
  .refl (fun hs => (h.controller hs).loader.1) h.room h.published

omit [Presenter P] in
theorem Paired.right (h : Paired build r s b) : Paired build some b b := by
  refine .refl (fun hb => (h.controller (h.status ▸ hb)).loader.2) (h.capacity ▸ h.room) fun hb => ?_
  have hs : s.status = .alive := h.status ▸ hb
  have hphase : s.controller.phase = b.controller.phase := (h.inStep hs).phase
  rw [← h.watch, h.published hs, hphase]

omit [Presenter P] in
/-- sessions that differ in nothing that is seen are in step with the same sessions -/
theorem Paired.trans (h : Paired build some s d) (h' : Paired build r d b) : Paired build r s b where
  controller hs := (h.controller hs).through (h'.controller (h.status ▸ hs)).symm
  capacity := h.capacity.trans h'.capacity
  room := h.room
  status := h.status.trans h'.status
  inbox := forall₂_same_some h.inbox ▸ h'.inbox
  waiting := forall₂_same_some h.waiting ▸ h'.waiting
  replies := by
    have hreplies := h.replies
    rw [translated_some] at hreplies
    rw [hreplies, h'.replies]
  watch := h.watch.trans h'.watch
  seen := h.seen.trans h'.seen
  cancelled := h.cancelled.trans h'.cancelled
  abandoned := h.abandoned.trans h'.abandoned
  published := h.published
  record := by
    have hreplies := h.replies
    have hrecord := h.record
    rw [translated_some] at hreplies
    rw [refusals_some] at hrecord
    rw [hreplies, hrecord.eq]
    exact h'.record

omit [Presenter P] in
/-- the same, where the second of the sessions has a counterpart -/
theorem Paired.through (h : Paired build r s d) (h' : Paired build some b d) : Paired build r s b where
  controller hs := (h.controller hs).through (h'.controller (h'.status ▸ h.status ▸ hs))
  capacity := h.capacity.trans h'.capacity.symm
  room := h.room
  status := h.status.trans h'.status.symm
  inbox := forall₂_same_some h'.inbox ▸ h.inbox
  waiting := forall₂_same_some h'.waiting ▸ h.waiting
  replies := by
    have hreplies := h'.replies
    rw [translated_some] at hreplies
    rw [hreplies, h.replies]
  watch := h.watch.trans h'.watch.symm
  seen := h.seen.trans h'.seen.symm
  cancelled := h.cancelled.trans h'.cancelled.symm
  abandoned := h.abandoned.trans h'.abandoned.symm
  published := h.published
  record := by
    have hrecord := h'.record
    rw [refusals_some] at hrecord
    rw [hrecord.eq]
    exact h.record

omit [Presenter P] in
theorem Paired.symm (h : Paired build some s b) : Paired build some b s := h.right.through h

end Session

end StepControl

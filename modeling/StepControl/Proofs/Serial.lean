/-
A session serialises: whatever its clients, the clock and its task do, and in whatever order, its controller does as if one
dispatch or tick was applied to it after the other.

`Serves` is the invariant. What the task had the controller do (`Act`) gives the session's controller, what its record says
was done, and its replies, when it is applied to the controller that was handed over and nothing else is (`replay`); the
commands applied are the first ones that entered the inbox, and tickets are given out in the order of posting. Every step of
a run keeps it (`Serves.step`). The controllers agree but for the interval of the timer, which is laid down when the task
asks for a tick: no dispatch and no tick looks at it.

`runs_serial` draws the conclusions for clients:
- first in, first out, each command once (`Serial.fifo`, `Serial.once`);
- the state and all deeds are those of the sequence (`Serial.effect`), and so is what a shutdown gives back
  (`Serial.handover`);
- every sender gets the result of its own command (`Serial.own`), or learns that the session is closed (`Serial.closed`);
- where the sequence has a tick, the run took it in a turn of a session that went on and had no command in its inbox
  (`TicksIdle`, from `Runs.split`: what was before the tick, the tick, and what came after make up the run);
- a session that is cancelled, or that nobody can reach, applies nothing more.

The interpreter never breaks down (`SoundInterpreter`); what a session does with one that may is told in `Containment`. The
channel is first in, first out, and senders that wait for room get it in the order in which they asked: this is how the
inbox is modelled.
-/
import StepControl.Proofs.Gives
import StepControl.Proofs.Oblivious
import StepControl.Proofs.Runs
import StepControl.Proofs.SessionRuns

namespace StepControl

open StepControl.Action

variable {I L P : Type}

/-- what was done, apart from log records: programs loaded, calls on interpreters, announcements -/
def deeds (j : List (Entry I)) : List (Entry I) := j.filter fun e => e.note?.isNone

@[simp] theorem deeds_append (j k : List (Entry I)) : deeds (j ++ k) = deeds j ++ deeds k := List.filter_append ..

@[simp] theorem deeds_noted (note : Note) : deeds [(.noted note : Entry I)] = [] := rfl

/-! ## Acts one after the other -/

section

variable [Interpreter I] [Loader L I] [Presenter P]

/-- apply one act to a controller; the results of dispatches go with the tickets of the commands -/
def Act.apply : Act → Drive I L P (List (Nat × Except Error Unit))
  | .dispatch now command => do
    let result ← Controller.dispatch now command.intent
    pure [(command.ticket, result)]
  | .tick now => do
    let _ ← Controller.tick now
    pure []

def replay : List Act → Drive I L P (List (Nat × Except Error Unit))
  | [] => pure []
  | act :: rest => do
    let results ← act.apply
    let more ← replay rest
    pure (results ++ more)

theorem replay_append (as bs : List Act) :
    (replay (as ++ bs) : Drive I L P _) = replay as >>= fun results => (results ++ ·) <$> replay bs := by
  induction as with
  | nil => simp [replay]
  | cons act as ih => simp [replay, ih]

theorem replay_cons (act : Act) (as : List Act) :
    (replay (act :: as) : Drive I L P _) = act.apply >>= fun results => (results ++ ·) <$> replay as := by
  simp [replay]

variable [SoundInterpreter I]

theorem oblivious_apply (act : Act) : Controller.Oblivious (act.apply : Drive I L P _) := by
  cases act with
  | dispatch now command => exact .bind (Controller.oblivious_dispatch now _) fun _ => .pure _
  | tick now => exact .bind (Controller.oblivious_tick now) fun _ => .pure _

/-- an act has results for the command that it applies, and no other -/
theorem apply_tickets (act : Act) (c : Controller I L P) :
    (act.apply : Drive I L P _).Gives c fun results _ _ =>
      results.map Prod.fst = act.command?.toList.map Command.ticket := by
  cases act with
  | dispatch now command =>
    obtain ⟨result, hr⟩ := Option.isSome_iff_exists.1 ((Controller.oblivious_dispatch now command.intent).returns c)
    simp only [Act.apply, gives_bind, gives_pure]
    exact ⟨result, hr, rfl⟩
  | tick now =>
    obtain ⟨outcome, ho⟩ := Option.isSome_iff_exists.1 ((Controller.oblivious_tick now).returns c)
    simp only [Act.apply, gives_bind, gives_pure]
    exact ⟨outcome, ho, rfl⟩

theorem dispatched_cons (act : Act) (as : List Act) : dispatched (act :: as) = act.command?.toList ++ dispatched as := by
  cases act <;> rfl

theorem replay_tickets (as : List Act) (c : Controller I L P) :
    (replay as : Drive I L P _).Gives c fun results _ _ =>
      results.map Prod.fst = (dispatched as).map Command.ticket := by
  induction as generalizing c with
  | nil => simp [replay, dispatched]
  | cons act as ih =>
    simp only [replay_cons, gives_bind, gives_map]
    refine (apply_tickets act c).imp ?_
    intro results d j hresults
    refine (ih d).imp ?_
    intro more e k hmore
    rw [dispatched_cons, List.map_append, List.map_append, hresults, hmore]

/-- one act more, applied to a controller that agrees but for the interval -/
theorem gives_replay_snoc {c d : Controller I L P} {as : List Act} {results : List (Nat × Except Error Unit)}
    {done : List (Entry I)}
    (h : (replay as : Drive I L P _).Gives c fun rs e j => rs = results ∧ e.unlaid = d.unlaid ∧ deeds j = done)
    (act : Act) {more : List (Nat × Except Error Unit)} (hmore : (act.apply d).value = some more) :
    (replay (as ++ [act]) : Drive I L P _).Gives c fun rs e j =>
      rs = results ++ more ∧ e.unlaid = (act.apply d).state.unlaid ∧ deeds j = done ++ deeds (act.apply d).journal := by
  rw [replay_append]
  simp only [gives_bind, gives_map, replay, gives_pure]
  refine h.imp ?_
  intro rs e j hsame
  obtain ⟨hrs, he, hj⟩ := hsame
  obtain ⟨hvalue, hstate, hjournal⟩ := (oblivious_apply act).congr he
  refine ⟨more, hvalue.trans hmore, ?_, hstate, ?_⟩
  · rw [hrs, List.append_nil]
  · rw [List.append_nil, List.append_nil, deeds_append, hj, hjournal]

end

namespace Session

/-! ## The invariant -/

def done (s : Session I L P) : List (Entry I) := deeds (s.record.map Timed.what)

@[simp] theorem done_write (now : Instant) (entries : List (Entry I)) (s : Session I L P) :
    (s.write now entries).done = s.done ++ deeds entries := by
  simp [done, write, Function.comp_def]

/-- nothing comes or goes between `s` and `t` but what the task does -/
structure SameQueue (s t : Session I L P) : Prop where
  status : t.status = s.status
  inbox : t.inbox = s.inbox
  waiting : t.waiting = s.waiting
  tickets : t.tickets = s.tickets

variable {s t : Session I L P} {now : Instant}

/-- a session that was just spawned -/
theorem spawn?_eq {c : Controller I L P} (h : spawn? c = some s) :
    s = { controller := c, capacity := max c.config.channelSize.toNat 1, watch := { phase := c.phase } } := by
  unfold spawn? at h
  dsimp only at h
  split at h
  · exact (Option.some.inj h).symm
  · simp at h

theorem SameQueue.isAlive (h : SameQueue s t) : t.isAlive = s.isAlive := by
  unfold Session.isAlive
  rw [h.status]

variable [Interpreter I] [Presenter P]

theorem serveTick_spec {timer : Timer} {outcome : Option Outcome}
    (h : (Controller.tick now { s.controller with timer }).value = some outcome) :
    SameQueue s (s.serveTick now timer) ∧
      (s.serveTick now timer).controller = (Controller.tick now { s.controller with timer }).state ∧
      (s.serveTick now timer).replies = s.replies ∧
      (s.serveTick now timer).done = s.done ++ deeds (Controller.tick now { s.controller with timer }).journal := by
  unfold serveTick
  simp only [h]
  refine ⟨⟨rfl, rfl, rfl, rfl⟩, rfl, rfl, ?_⟩
  exact done_write now _ { s with controller := (Controller.tick now { s.controller with timer }).state }

variable [Loader L I]

theorem serve_spec {command : Command} {result : Except Error Unit}
    (h : (Controller.dispatch now command.intent s.controller).value = some result) :
    SameQueue s (s.serve now command) ∧
      (s.serve now command).controller = (Controller.dispatch now command.intent s.controller).state ∧
      (s.serve now command).replies = s.replies ++ [(command.ticket, result)] ∧
      (s.serve now command).done = s.done ++ deeds (Controller.dispatch now command.intent s.controller).journal := by
  let applied : Session I L P := { s with controller := (Controller.dispatch now command.intent s.controller).state }
  have hdone : (applied.write now (Controller.dispatch now command.intent s.controller).journal).done =
      s.done ++ deeds (Controller.dispatch now command.intent s.controller).journal := done_write now _ applied
  unfold serve
  simp only [h]
  cases result with
  | ok _ => exact ⟨⟨rfl, rfl, rfl, rfl⟩, rfl, rfl, hdone⟩
  | error e =>
    refine ⟨⟨rfl, rfl, rfl, rfl⟩, rfl, rfl, ?_⟩
    have hnoted := done_write now [.noted (.intentFailed command.intent e)]
      (applied.write now (Controller.dispatch now command.intent s.controller).journal)
    rw [deeds_noted, List.append_nil] at hnoted
    exact hnoted.trans hdone

/-- what the session of a controller that was `c` when it was handed over has come to, where `as` is what the task had the
controller do, and `es` are the commands that entered the inbox -/
structure Serves (c : Controller I L P) (as : List Act) (es : List Command) (s : Session I L P) : Prop where
  effect : (replay as : Drive I L P _).Gives c fun results d j =>
    results = s.replies ∧ d.unlaid = s.controller.unlaid ∧ deeds j = s.done
  fifo : ∃ rest, es = dispatched as ++ rest ∧ (s.isAlive = true → rest = s.inbox)
  line : es.map Command.ticket <+: List.range s.tickets
  whole : s.isAlive = true → (es ++ s.waiting).map Command.ticket = List.range s.tickets
  gone : s.isAlive = false → s.inbox = [] ∧ s.waiting = []

variable {c : Controller I L P} {as bs : List Act} {es fs : List Command}

theorem serves_spawn (h : spawn? c = some s) : Serves c [] [] s := by
  obtain rfl := spawn?_eq h
  exact ⟨by simp [replay, done, deeds], ⟨[], rfl, fun _ => rfl⟩, List.nil_prefix, fun _ => rfl, by simp [isAlive]⟩

/-- the task ends: nothing more is applied, and nobody waits any more -/
theorem Serves.close (h : Serves c as es s) {status : Status} (hs : status ≠ .alive) : Serves c as es (s.close status) := by
  obtain ⟨rest, hes, -⟩ := h.fifo
  have hover : (s.close status).isAlive = false := decide_eq_false hs
  refine ⟨h.effect, ⟨rest, hes, ?_⟩, h.line, ?_, fun _ => ⟨rfl, rfl⟩⟩
  · intro ha
    rw [hover] at ha
    exact absurd ha (by decide)
  · intro ha
    rw [hover] at ha
    exact absurd ha (by decide)

theorem Serves.finish (h : Serves c as es s) : Serves c as es (s.finish now) := by
  have hnoted : Serves c as es (s.write now [.noted (.taskFinished s.controller.phase)]) := by
    refine ⟨?_, h.fifo, h.line, h.whole, h.gone⟩
    rw [done_write, deeds_noted, List.append_nil]
    exact h.effect
  exact hnoted.close (by decide)

theorem Serves.post (h : Serves c as es s) (intent : Intent) : Serves c as es (s.post intent).2 := by
  have hsame : (s.post intent).2.isAlive = s.isAlive := rfl
  refine ⟨h.effect, h.fifo, ?_, ?_, ?_⟩
  · exact h.line.trans ⟨[s.tickets], List.range_succ.symm⟩
  · intro ha
    rw [hsame] at ha
    have hwhole := h.whole ha
    simp only [Session.post, ha, if_true, List.range_succ, ← hwhole]
    simp
  · intro ha
    rw [hsame] at ha
    have hgone := h.gone ha
    exact ⟨hgone.1, by simp [Session.post, ha, hgone.2]⟩

theorem Serves.enter {command : Command} {rest : List Command} (h : Serves c as es s)
    (hw : s.waiting = command :: rest) :
    Serves c as (es ++ [command]) { s with inbox := s.inbox ++ [command], waiting := rest } := by
  have halive : s.isAlive = true := by
    by_contra hdead
    have hnone := (h.gone (by simpa using hdead)).2
    rw [hw] at hnone
    exact absurd hnone (by simp)
  obtain ⟨inbox, hes, hinbox⟩ := h.fifo
  have hwhole : (es ++ [command] ++ rest).map Command.ticket = List.range s.tickets := by
    rw [← h.whole halive, hw]
    simp
  refine ⟨h.effect, ⟨inbox ++ [command], ?_, ?_⟩, ?_, fun _ => hwhole, ?_⟩
  · rw [hes, List.append_assoc]
  · intro _
    rw [hinbox halive]
  · rw [List.map_append] at hwhole
    exact ⟨_, hwhole⟩
  · intro hover
    exact absurd (halive.symm.trans hover) (by decide)

theorem Serves.once (h : Serves c as es s) : (es.map Command.ticket).Nodup :=
  List.nodup_range.sublist h.line.sublist

variable [SoundInterpreter I]

/-- the oldest command in the inbox is applied -/
theorem Serves.serve {command : Command} {rest : List Command} (h : Serves c as es s) (hs : s.status = .alive)
    (hi : s.inbox = command :: rest) :
    Serves c (as ++ [.dispatch now command]) es ({ s with inbox := rest }.serve now command) := by
  have halive : s.isAlive = true := by simp [isAlive, hs]
  obtain ⟨waiting, hes, hinbox⟩ := h.fifo
  obtain ⟨result, hr⟩ :=
    Option.isSome_iff_exists.1 ((Controller.oblivious_dispatch now command.intent).returns s.controller)
  have happly : ((Act.dispatch now command).apply s.controller).value = some [(command.ticket, result)] := by
    simp [Act.apply, bind_apply, hr]
  have hend : (Controller.dispatch now command.intent s.controller).state =
        ((Act.dispatch now command).apply s.controller).state ∧
      (Controller.dispatch now command.intent s.controller).journal =
        ((Act.dispatch now command).apply s.controller).journal := by
    simp [Act.apply, bind_apply, hr]
  obtain ⟨hqueue, hcontroller, hreplies, hdone⟩ := serve_spec (s := { s with inbox := rest }) hr
  refine ⟨?_, ⟨rest, ?_, fun _ => hqueue.inbox.symm⟩, ?_, ?_, ?_⟩
  · rw [hreplies, hcontroller, hdone, hend.1, hend.2]
    exact gives_replay_snoc h.effect _ happly
  · rw [hes, hinbox halive, hi, dispatched_append, List.append_assoc]
    rfl
  · rw [hqueue.tickets]
    exact h.line
  · intro _
    rw [hqueue.waiting, hqueue.tickets]
    exact h.whole halive
  · intro hover
    rw [hqueue.isAlive] at hover
    exact absurd (halive.symm.trans hover) (by decide)

/-- a tick is applied, after the timer has moved on -/
theorem Serves.serveTick (h : Serves c as es s) (hs : s.status = .alive) :
    Serves c (as ++ [.tick now]) es (s.serveTick now (s.controller.timer.poll now).2) := by
  have halive : s.isAlive = true := by simp [isAlive, hs]
  obtain ⟨rest, hes, hinbox⟩ := h.fifo
  let polled : Controller I L P := { s.controller with timer := (s.controller.timer.poll now).2 }
  obtain ⟨outcome, ho⟩ := Option.isSome_iff_exists.1 ((Controller.oblivious_tick now).returns polled)
  have happly : ((Act.tick now).apply polled).value = some [] := by simp [Act.apply, bind_apply, ho]
  have hend : (Controller.tick now polled).state = ((Act.tick now).apply polled).state ∧
      (Controller.tick now polled).journal = ((Act.tick now).apply polled).journal := by
    simp [Act.apply, bind_apply, ho]
  have heffect := h.effect
  rw [← Controller.unlaid_poll now] at heffect
  obtain ⟨hqueue, hcontroller, hreplies, hdone⟩ := serveTick_spec ho
  refine ⟨?_, ⟨rest, ?_, ?_⟩, ?_, ?_, ?_⟩
  · rw [hreplies, hcontroller, hdone, hend.1, hend.2]
    simpa using gives_replay_snoc heffect _ happly
  · rw [hes, dispatched_append]
    simp [dispatched, Act.command?]
  · intro _
    rw [hqueue.inbox]
    exact hinbox halive
  · rw [hqueue.tickets]
    exact h.line
  · intro _
    rw [hqueue.waiting, hqueue.tickets]
    exact h.whole halive
  · intro hover
    rw [hqueue.isAlive] at hover
    exact absurd (halive.symm.trans hover) (by decide)

/-- a turn does to the controller what its act does, and nothing where there is none -/
theorem Serves.turn (h : Serves c as es s) (ht : Turned now s bs t) : Serves c (as ++ bs) es t := by
  cases ht with
  | idle status => simpa using h
  | finish status reason => simpa using h.finish
  | serve status going inbox => exact h.serve status inbox
  | tick status going inbox held poll =>
    have htick : Serves c (as ++ [.tick now]) es _ := h.serveTick status
    rw [poll] at htick
    exact htick
  | overflow status going inbox held poll => simpa using h.close (by decide)
  | park status going inbox held =>
    rw [List.append_nil]
    refine ⟨?_, h.fifo, h.line, h.whole, h.gone⟩
    rw [Controller.unlaid_poll]
    exact h.effect

/-- **Every step of a run keeps the invariant.** -/
theorem Serves.step (h : Serves c as es s) (hstep : Step s bs fs t) : Serves c (as ++ bs) (es ++ fs) t := by
  cases hstep with
  | post intent held => simpa using h.post intent
  | enter room first => simpa using h.enter first
  | turn now => simpa using h.turn (turn_turned now s)
  | look =>
    rw [List.append_nil, List.append_nil]
    exact ⟨h.effect, h.fifo, h.line, h.whole, h.gone⟩
  | cancel =>
    rw [List.append_nil, List.append_nil]
    exact ⟨h.effect, h.fifo, h.line, h.whole, h.gone⟩
  | letGo alone =>
    rw [List.append_nil, List.append_nil]
    exact ⟨h.effect, h.fifo, h.line, h.whole, h.gone⟩

theorem Runs.serves (h : Runs s as es t) (hs : spawn? c = some s) : Serves c as es t := by
  induction h with
  | refl => exact serves_spawn hs
  | snoc _ last ih => exact ih.step last

/-! ## What clients can rely on -/

/-- the session `s` of a controller that was `c` when it was handed over, where the task had the controller do `as`, and
the commands `es` entered the inbox -/
structure Serial (c : Controller I L P) (as : List Act) (es : List Command) (s : Session I L P) : Prop where
  fifo : ∃ rest, es = dispatched as ++ rest ∧ (s.isAlive = true → rest = s.inbox)
  order : es.map Command.ticket <+: List.range s.tickets
  once : (es.map Command.ticket).Nodup
  effect : (replay as : Drive I L P _).Gives c fun _ d j => d.unlaid = s.controller.unlaid ∧ deeds j = s.done
  handover : ∀ now, (s.shutdown now).1 = if s.status = .crashed then .error .sessionLost else .ok s.controller
  own : ∀ before now command after, as = before ++ .dispatch now command :: after →
    (replay before : Drive I L P _).Gives c fun _ d _ =>
      ∃ result, (Controller.dispatch now command.intent d).value = some result ∧ s.reply? command.ticket = some result
  closed : ∀ ticket, (∀ command ∈ dispatched as, command.ticket ≠ ticket) →
    s.reply? ticket = if s.isAlive then none else some (.error .sessionClosed)

theorem Serves.tickets (h : Serves c as es s) : s.replies.map Prod.fst = (dispatched as).map Command.ticket := by
  obtain ⟨results, hresults, rfl, -, -⟩ := h.effect
  obtain ⟨results', hresults', htickets⟩ := replay_tickets as c
  obtain rfl : s.replies = results' := Option.some.inj (hresults.symm.trans hresults')
  exact htickets

/-- the sender of a command gets the result that the command had where it was applied -/
theorem Serves.own (h : Serves c as es s) {before after : List Act} {command : Command}
    (has : as = before ++ .dispatch now command :: after) :
    (replay before : Drive I L P _).Gives c fun _ d _ =>
      ∃ result, (Controller.dispatch now command.intent d).value = some result ∧ s.reply? command.ticket = some result := by
  have heffect := h.effect
  rw [has, replay_append] at heffect
  simp only [gives_bind, gives_map, replay_cons] at heffect
  obtain ⟨earlier, hearlier, rs, hrs, later, -, hreplies, -⟩ := heffect
  obtain ⟨result, hr⟩ := Option.isSome_iff_exists.1
    ((Controller.oblivious_dispatch now command.intent).returns ((replay before : Drive I L P _) c).state)
  obtain rfl : [(command.ticket, result)] = rs := by simpa [Act.apply, bind_apply, hr] using hrs
  refine ⟨earlier, hearlier, result, hr, ?_⟩
  -- no earlier command has the same ticket
  have hfirst : ∀ p ∈ earlier, (command.ticket != p.1) = true := by
    intro p hp
    obtain ⟨rs', hrs', htickets⟩ := replay_tickets before c
    obtain rfl : earlier = rs' := Option.some.inj (hearlier.symm.trans hrs')
    have hmem : p.1 ∈ (dispatched before).map Command.ticket := htickets ▸ List.mem_map_of_mem hp
    have hnodup : ((dispatched before).map Command.ticket ++
        command.ticket :: (dispatched after).map Command.ticket).Nodup := by
      have hall := h.once
      obtain ⟨rest, hes, -⟩ := h.fifo
      rw [hes, List.map_append, has, dispatched_append, dispatched_cons, List.map_append] at hall
      exact (List.nodup_append.1 hall).1
    have hne : p.1 ≠ command.ticket := by
      have hdisjoint := (List.nodup_append.1 hnodup).2.2
      exact hdisjoint p.1 hmem command.ticket List.mem_cons_self
    simpa using Ne.symm hne
  have hlookup : s.replies.lookup command.ticket = some result :=
    List.lookup_eq_some_iff.2 ⟨earlier, later, hreplies.symm, hfirst⟩
  unfold reply?
  rw [hlookup]

theorem Serves.closed (h : Serves c as es s) {ticket : Nat} (hnone : ∀ command ∈ dispatched as, command.ticket ≠ ticket) :
    s.reply? ticket = if s.isAlive then none else some (.error .sessionClosed) := by
  have hlookup : s.replies.lookup ticket = none := by
    refine List.lookup_eq_none_iff.2 ?_
    intro p hp
    have hmem : p.1 ∈ (dispatched as).map Command.ticket := h.tickets ▸ List.mem_map_of_mem hp
    obtain ⟨command, hc, heq⟩ := List.mem_map.1 hmem
    have hne := hnone command hc
    rw [heq] at hne
    simpa using Ne.symm hne
  unfold reply?
  rw [hlookup]

/-- from `s` to `t`, while `es` entered the inbox, the task did `before`; then it took a tick at `now`, in a turn of a session
that went on and had no command in its inbox; and from what this turn left it did `after` -/
def TicksIdle (s t : Session I L P) (before : List Act) (now : Instant) (after : List Act) (es : List Command) : Prop :=
  ∃ fs gs r, es = fs ++ gs ∧ Runs s before fs r ∧
    (r.isAlive = true ∧ r.inbox = [] ∧ r.cancelled = false ∧ r.abandoned = false) ∧
    r.acts now = [.tick now] ∧ Runs (r.turn now).2 after gs t

omit [SoundInterpreter I] in
/-- **A tick is taken in such a turn**, wherever it stands in a run. -/
theorem Runs.ticksIdle (h : Runs s as es t) {before after : List Act} (has : as = before ++ .tick now :: after) :
    TicksIdle s t before now after es := by
  obtain ⟨fs, gs, r, now', hes, hr, hacts, hrest⟩ := h.split has
  obtain ⟨rfl, -⟩ := acts_tick_ready hacts
  exact ⟨fs, gs, r, hes, hr, acts_tick hacts, hacts, hrest⟩

end Session

end StepControl

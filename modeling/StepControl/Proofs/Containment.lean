/-
What is left of a session whose interpreter breaks down.

Any call on the interpreter may break down, while the task applies a command or a tick. Until then the session is intact
(`Intact`): no call in its record broke down, and its controller was reached by the acts of the task. Then the task is dead
(`Dead`), and nothing of it changes any more, whatever clients still do to the session.

Results:
- `Session.Runs.cut_broken`: a run is intact, or it comes to a turn over which the controller breaks down, and then nothing
  more is applied.
- `Session.Runs.dead`: a dead task stays dead, with its record and what it published.
- `Session.Intact.contained`: what clients get after such a turn (`Contained`).
- `Session.runs_contained`: in every run in whose record a call broke down, the turn is found at its place in the run
  itself: what was done before it, the session right before it, and what clients did after it.
- `Session.runs_contained_firstStep`: a first step that breaks down, with one request in line behind it and one posted
  later.

What clients get: the senders of the commands applied before have their own results, and all others learn that the session
is closed, whether their commands were being applied, queued, waiting for room or sent later. What is published is the phase
after the last turn that was completed. Waits end, shutting down reports that the session is lost, and the breakdown is the
last thing in the record that is no log record.

Premises: none of the interpreter. The controller of the session was reached by some history.
-/
import StepControl.Proofs.Breakdowns
import StepControl.Proofs.Turns
import StepControl.Script

namespace StepControl

namespace Session

open StepControl.Action
open Controller (Reached EndsBroken)

variable {I L P : Type} [Interpreter I] [Loader L I] [Presenter P] {s t u r : Session I L P} {now : Instant} {act : Act}
  {as bs : List Act} {es fs : List Command}

/-! ## Dead tasks -/

/-- the task of `s` is dead, and `t` is the same but for what clients have asked and looked at since -/
structure Dead (s t : Session I L P) : Prop where
  status : t.status = .crashed
  gone : t.inbox = [] ∧ t.waiting = []
  controller : t.controller = s.controller
  record : t.record = s.record
  replies : t.replies = s.replies
  watch : t.watch = s.watch

/-- nothing happens in a task that is dead -/
theorem Dead.step (h : Dead s t) (hstep : Step t as es u) : as = [] ∧ Dead s u := by
  cases hstep with
  | post intent held =>
    have hover : t.isAlive = false := by simp [isAlive, h.status]
    exact ⟨rfl, h.status, ⟨h.gone.1, by simp [Session.post, hover, h.gone.2]⟩, h.controller, h.record, h.replies, h.watch⟩
  | enter room first => simp [h.gone.2] at first
  | turn now =>
    obtain ⟨hnone, hsame⟩ := (turn_turned now t).over (by rw [h.status]; decide)
    rw [hnone, hsame]
    exact ⟨rfl, h⟩
  | look => exact ⟨rfl, h.status, h.gone, h.controller, h.record, h.replies, h.watch⟩
  | cancel => exact ⟨rfl, h.status, h.gone, h.controller, h.record, h.replies, h.watch⟩
  | letGo alone => exact ⟨rfl, h.status, h.gone, h.controller, h.record, h.replies, h.watch⟩

theorem Runs.dead (h : Runs s as es t) (hs : Dead s s) : as = [] ∧ Dead s t := by
  induction h with
  | refl => exact ⟨rfl, hs⟩
  | snoc _ last ih =>
    obtain ⟨rfl, ht⟩ := ih
    exact ht.step last

theorem Broke.dead (h : Broke s act t) : Dead t t := ⟨h.status.2, h.gone, rfl, rfl, rfl, rfl⟩

/-! ## The turn in which the interpreter breaks down -/

/-- no call has broken down yet -/
structure Intact (s : Session I L P) : Prop where
  current : Current s
  ticketed : Ticketed s
  sound : ∀ e ∈ s.record, e.what.isBroken = false

omit [Interpreter I] in
theorem sound_remarks (notes : List Note) : ∀ e ∈ remarks (I := I) now notes, e.what.isBroken = false := by
  simp [remarks, Entry.isBroken]

theorem intact_spawn {past : List Applied} {c : Controller I L P} (hc : Reached past c)
    (hs : spawn? c = some s) : Intact s := by
  have hcurrent := current_spawn hc hs
  have hticketed := ticketed_spawn hs
  obtain rfl := spawn?_eq hs
  exact ⟨hcurrent, hticketed, by simp⟩

omit [Interpreter I] [Loader L I] [Presenter P] in
theorem Rests.intact (hr : Rests s t) (h : Intact s) : Intact t where
  current := hr.current h.current
  ticketed := h.ticketed.rests hr
  sound := by
    obtain ⟨at', notes, hrecord⟩ := hr.record
    rw [hrecord]
    exact List.forall_mem_append.2 ⟨h.sound, sound_remarks notes⟩

/-- what the task did in a turn that it completed is sound -/
theorem Completed.intact {reply : Reply} (hc : Completed s act reply t) (h : Intact s) : Intact t where
  current := hc.current h.current
  ticketed := Kinds.ticketed (.completed hc) h.ticketed
  sound := by
    obtain ⟨hsteady, hwhole⟩ := h.current.atHand act
    have hsound := (Controller.perform_yields hsteady hwhole act.asked.2 reply hc.value).1.sound
    obtain ⟨notes, hrecord⟩ := hc.record
    rw [hrecord]
    refine List.forall_mem_append.2 ⟨h.sound, List.forall_mem_append.2 ⟨?_, sound_remarks notes⟩⟩
    rw [List.forall_mem_map]
    exact hsound

/-- in a turn over which the controller breaks down a call breaks down, and that is the last thing done -/
theorem Broke.ends (hb : Broke s act t) (h : Intact s) :
    ∃ j, EndsBroken j ∧ t.record = s.record ++ j.map (Timed.mk act.asked.1) :=
  ⟨_, (Controller.perform_breaks (h.current.atHand act).1 act.asked.2 hb.value).ends, hb.record⟩

/-- **A run is intact, or it comes to a turn over which the controller breaks down**, and then nothing more is applied. -/
theorem Runs.cut_broken (h : Runs s as es t) (hs : Intact s) : Intact t ∨
    ∃ before fs gs r now act, Runs s before fs r ∧ Intact r ∧ r.acts now = [act] ∧ Broke r act (r.turn now).2 ∧
      Runs (r.turn now).2 [] gs t ∧ as = before ++ [act] := by
  induction h with
  | refl => exact Or.inl hs
  | @snoc as as' es es' t u front last ih =>
    rcases ih with ht | ⟨before, fs, gs, r, now, act, hbefore, hr, hacts, hbroke, hrest, rfl⟩
    · cases last.kinds with
      | rests hr => exact Or.inl (hr.intact ht)
      | completed hc => exact Or.inl (hc.intact ht)
      | @broke act u hb =>
        obtain ⟨now, hacts, -, rfl⟩ := last.eq_turn (by simp)
        exact Or.inr ⟨as, es, [], t, now, act, front, ht, hacts.symm, hb, .refl, rfl⟩
    · obtain ⟨-, hdead⟩ := hrest.dead hbroke.dead
      obtain ⟨rfl, -⟩ := hdead.step last
      refine Or.inr ⟨before, fs, gs ++ es', r, now, act, hbefore, hr, hacts, hbroke, ?_, by simp⟩
      simpa using hrest.snoc last

/-! ## What clients get -/

/-- what clients get of the session `t` of a task that has applied `before` and then broken down over `act`; `r` is the
session before that turn -/
structure Contained (s : Session I L P) (before : List Act) (r : Session I L P) (act : Act) (t : Session I L P) : Prop where
  /-- the results of the commands applied before stand -/
  own : ∀ front now command rest, before = front ++ .dispatch now command :: rest → ∃ fs u result, Runs s front fs u ∧
    (Controller.dispatch now command.intent u.controller).value = some result ∧ t.reply? command.ticket = some result
  /-- the command that is applied is the first in the inbox -/
  applied : act.command?.toList <+: r.inbox
  /-- the senders of the others learn that the session is closed -/
  lost : ∀ command ∈ r.inbox ++ r.waiting, t.reply? command.ticket = some (.error .sessionClosed)
  later : ∀ ticket, r.tickets ≤ ticket → t.reply? ticket = some (.error .sessionClosed)
  /-- the breakdown is the last thing that was done -/
  last : ∃ j, EndsBroken j ∧ t.record = r.record ++ j.map (Timed.mk act.asked.1)
  /-- the published phase is that after the last turn that was completed -/
  published : t.watch = r.watch ∧ t.watch.phase = r.controller.phase
  waits : ∀ target now limit, (t.waitFor target now limit).1 =
    (if target = r.controller.phase then .reached else .closed) ∧ (t.waitFor target now limit).2.1 = now
  readers : ∀ seen, t.changed? seen = none
  handover : ∀ now, (t.shutdown now).1 = .error .sessionLost

/-- the sender of a command that was applied has its result, however the session went on -/
theorem Runs.own (h : Runs s as es r) (hs : Ticketed s) (hr : r.status ≠ .crashed) {front rest : List Act}
    {command : Command} (has : as = front ++ .dispatch now command :: rest) (h' : Runs r bs fs t) :
    ∃ fs u result, Runs s front fs u ∧ (Controller.dispatch now command.intent u.controller).value = some result ∧
      t.reply? command.ticket = some result := by
  obtain ⟨fs, gs, u, at', -, hu, hacts, hrest⟩ := h.split has
  have hkinds := (turn_turned at' u).kinds
  rw [hacts] at hkinds
  cases hkinds with
  | broke hb => exact absurd (hrest.dead hb.dead).2.status hr
  | completed hc =>
    have hvalue := hc.value
    rw [applying_dispatch] at hvalue
    obtain ⟨result, hresult, rfl⟩ := Option.map_eq_some_iff.1 hvalue
    have hmem : (command.ticket, result) ∈ (u.turn at').2.replies := by
      rw [hc.replies]
      exact List.mem_append_right _ (List.mem_singleton_self _)
    have hticketed := Kinds.ticketed (.completed hc) (hu.ticketed hs)
    exact ⟨fs, u, result, hu, hresult, (hrest.trans h').reply?_eq hticketed hmem⟩

omit [Interpreter I] [Loader L I] [Presenter P] in
/-- what is still in line has no reply -/
theorem Ticketed.unanswered (h : Ticketed s) {command : Command} (hmem : command ∈ s.inbox ++ s.waiting) :
    command.ticket ∉ s.replies.map Prod.fst := by
  intro hreplied
  have hlt := (List.pairwise_append.1 h.order).2.2 command.ticket hreplied command.ticket (List.mem_map_of_mem hmem)
  exact absurd hlt (Nat.lt_irrefl _)

omit [Interpreter I] [Loader L I] [Presenter P] in
theorem Ticketed.ungiven (h : Ticketed s) {ticket : Nat} (hle : s.tickets ≤ ticket) : ticket ∉ s.replies.map Prod.fst := by
  intro hreplied
  exact absurd (h.given ticket (List.mem_append_left _ hreplied)) (Nat.not_lt.2 hle)

theorem Intact.contained (h : Intact r) (hb : Broke r act u) (ht : Dead u t)
    (hown : ∀ front now command rest, as = front ++ .dispatch now command :: rest → ∃ fs u result, Runs s front fs u ∧
      (Controller.dispatch now command.intent u.controller).value = some result ∧ t.reply? command.ticket = some result) :
    Contained s as r act t := by
  have hover : t.isAlive = false := by simp [isAlive, ht.status]
  have hclosed : ∀ ticket, ticket ∉ r.replies.map Prod.fst → t.reply? ticket = some (.error .sessionClosed) := by
    intro ticket hnot
    have hnot' : ticket ∉ t.replies.map Prod.fst := by rwa [ht.replies, hb.replies]
    rw [reply?_of_not_replied hnot', hover]
    rfl
  have hphase : t.watch.phase = r.controller.phase := by rw [ht.watch, hb.watch, h.current.published]
  obtain ⟨j, hj, hrecord⟩ := hb.ends h
  exact
    { own := hown
      applied := ⟨_, hb.inbox.symm⟩
      lost := fun command hmem => hclosed _ (h.ticketed.unanswered hmem)
      later := fun ticket hle => hclosed _ (h.ticketed.ungiven hle)
      last := ⟨j, hj, ht.record.trans hrecord⟩
      published := ⟨ht.watch.trans hb.watch, hphase⟩
      waits := by
        intro target now limit
        unfold waitFor
        rw [hphase]
        by_cases htarget : r.controller.phase = target
        · simp [htarget]
        · simp [htarget, Ne.symm htarget, hover]
      readers := fun seen => by simp [changed?, hover]
      handover := fun now => by rw [shutdown_fst, if_pos ht.status] }

/-- **A breakdown is contained.** Where a call on an interpreter breaks down in a run of a session, the task applies nothing
more; the senders of the commands applied before have their own results, and all others learn that the session is closed;
what is published is the phase after the last turn that was completed; and the controller is lost. -/
theorem runs_contained {past : List Applied} {c : Controller I L P} (hc : Reached past c) (hs : spawn? c = some s)
    (h : Runs s as es t) (hbroken : ∃ e ∈ t.record, e.what.isBroken = true) :
    ∃ before fs gs r now act, Runs s before fs r ∧ r.acts now = [act] ∧ Runs (r.turn now).2 [] gs t ∧
      as = before ++ [act] ∧ Contained s before r act t := by
  have hspawned := intact_spawn hc hs
  rcases h.cut_broken hspawned with hintact | ⟨before, fs, gs, r, now, act, hbefore, hr, hacts, hbroke, hrest, has⟩
  · obtain ⟨e, he, hcall⟩ := hbroken
    rw [hintact.sound e he] at hcall
    exact absurd hcall (by decide)
  · refine ⟨before, fs, gs, r, now, act, hbefore, hacts, hrest, has, ?_⟩
    refine hr.contained hbroke (hrest.dead hbroke.dead).2 ?_
    intro front at' command rest hsplit
    have halive : r.status ≠ .crashed := by
      rw [hbroke.status.1]
      decide
    exact hbefore.own hspawned.ticketed halive hsplit ((Step.turn r now).runs.trans hrest)

/-- a program whose first step breaks down -/
def faltering : Repertoire := ⟨[{ lines := [{ ending := none }] }]⟩

/-- a refused delay, then a first step that breaks down, with one request in line behind it and one posted later -/
theorem runs_contained_firstStep :
    ∃ (s t : Session Player Repertoire Unit) (as : List Act) (es : List Command),
      Reached [] (Controller.ofConfig { channelSize := 1 } faltering () : Controller Player Repertoire Unit) ∧
        spawn? (Controller.ofConfig { channelSize := 1 } faltering ()) = some s ∧ Runs s as es t ∧
        (∃ e ∈ t.record, e.what.isBroken = true) ∧
        (∃ before fs gs r now act, Runs s before fs r ∧ r.acts now = [act] ∧ Runs (r.turn now).2 [] gs t ∧
          as = before ++ [act] ∧ Contained s before r act t) ∧
        as = [.dispatch 0 ⟨0, .setDelay 0⟩, .dispatch 5 ⟨1, .firstStep⟩] ∧
        t.reply? 0 = some (.error (.invalidDelay "0")) ∧ t.tickets = 4 := by
  let s : Session Player Repertoire Unit :=
    { controller := Controller.ofConfig { channelSize := 1 } faltering (), capacity := 1, watch := { phase := .idle } }
  have hs : spawn? (Controller.ofConfig { channelSize := 1 } faltering ()) = some s := rfl
  have hrefused := runs_request (s := s) 0 (.setDelay 0) rfl
  have hposted := (hrefused.snoc (.post _ .firstStep (by decide +kernel))).snoc (.post _ .stop (by decide +kernel))
  have hbroken := (hposted.trans (runsBy_fillInbox 5 _).runs).snoc (.turn _ 5)
  have hrun := hbroken.snoc (.post _ .run (by decide +kernel))
  refine ⟨s, _, _, _, .new _ _ _, hs, hrun, ?call, runs_contained (.new _ _ _) hs hrun ?call, ?_, ?_, ?_⟩
  all_goals decide +kernel

end Session

end StepControl

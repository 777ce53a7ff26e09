/-
What each step of a run leaves behind, said once.

A step applies an act or none, and there are three ways for it to end (`Kinds`):
- `Rests`: it applies none. It leaves the published phase and the controller as they were, but for the interval of the
  timer, and writes nothing but log records.
- `Completed`: it is a turn of the task that applies an act, and then the controller's new phase is published and the sender
  of the command has the reply.
- `Broke`: it is a turn over whose act the controller breaks down, and then nothing is published and the task is dead.
`Step.kinds` says that there are no other steps; whoever proves something of all steps treats these three.

Tickets are kept in one line (`Session.line`): those that were replied to, those in the inbox, those of senders that wait.
The line is in the order of posting and holds no ticket twice (`Ticketed`).
- `Runs.ticketed`: a run keeps it so.
- `Runs.reply?_eq`: a reply, once sent, stays the reply to its ticket.
- `Runs.whole`: as long as the task is alive no ticket gets lost from the line.

As long as the task has not broken down, the controller is between two operations, and its phase is the published one
(`Current`); `Completed.current` and `Rests.current` say that steps keep this.

Premises: none of the interpreter. The session began as one of a controller with some history, or is in the state that this
leads to.
-/
import StepControl.Proofs.Histories

namespace StepControl

open StepControl.Action

variable {I L P : Type}

/-- the replies sent for an act that came to `reply` -/
def Act.answers : Act → Reply → List (Nat × Except Error Unit)
  | .dispatch _ command, reply => [(command.ticket, reply.toResult)]
  | .tick _, _ => []

namespace Session

def remarks (now : Instant) (notes : List Note) : List (Timed (Entry I)) :=
  (notes.map .noted).map (Timed.mk now)

/-- the tickets replied to, in the inbox and in line, in this order -/
def line (s : Session I L P) : List Nat :=
  s.replies.map Prod.fst ++ (s.inbox ++ s.waiting).map Command.ticket

/-- a step that applies nothing -/
structure Rests (s t : Session I L P) : Prop where
  watch : t.watch = s.watch
  controller : t.controller = s.controller ∨
    ∃ now, t.controller = { s.controller with timer := (s.controller.timer.poll now).2 }
  record : ∃ now notes, t.record = s.record ++ remarks now notes
  replies : t.replies = s.replies
  line : (t.tickets = s.tickets ∧ t.line.Sublist s.line) ∨ (t.tickets = s.tickets + 1 ∧ t.line.Sublist (s.line ++ [s.tickets]))

variable [Interpreter I] [Loader L I] [Presenter P]

/-- the controller that an act is applied to; a tick has been taken off its timer before -/
def atHand (s : Session I L P) : Act → Controller I L P
  | .dispatch .. => s.controller
  | .tick now => { s.controller with timer := (s.controller.timer.poll now).2 }

/-- what comes of an act where it is applied -/
def applying (s : Session I L P) (act : Act) : Turn (Controller I L P) (Entry I) Reply :=
  (Controller.perform act.asked.1 act.asked.2 : Drive I L P Reply) (s.atHand act)

/-- a turn that applied an act, which came to `reply` -/
structure Completed (s : Session I L P) (act : Act) (reply : Reply) (t : Session I L P) : Prop where
  value : (s.applying act).value = some reply
  status : s.status = .alive ∧ t.status = .alive
  controller : t.controller = (s.applying act).state
  watch : t.watch = s.watch.publish t.controller.phase
  record : ∃ notes, t.record =
    s.record ++ ((s.applying act).journal.map (Timed.mk act.asked.1) ++ remarks act.asked.1 notes)
  replies : t.replies = s.replies ++ act.answers reply
  inbox : s.inbox = act.command?.toList ++ t.inbox
  waiting : t.waiting = s.waiting
  tickets : t.tickets = s.tickets

/-- a turn over whose act the controller broke down -/
structure Broke (s : Session I L P) (act : Act) (t : Session I L P) : Prop where
  value : (s.applying act).value = none
  status : s.status = .alive ∧ t.status = .crashed
  watch : t.watch = s.watch
  record : t.record = s.record ++ (s.applying act).journal.map (Timed.mk act.asked.1)
  replies : t.replies = s.replies
  inbox : s.inbox = act.command?.toList ++ s.inbox.drop act.command?.toList.length
  gone : t.inbox = [] ∧ t.waiting = []
  tickets : t.tickets = s.tickets

variable {s t u : Session I L P} {now : Instant} {act : Act} {as bs : List Act} {es fs : List Command}

/-! ## Turns -/

def failures (intent : Intent) : Except Error Unit → List Note
  | .ok _ => []
  | .error e => [.intentFailed intent e]

theorem serve_some {command : Command} {result : Except Error Unit}
    (h : (Controller.dispatch now command.intent s.controller).value = some result) :
    s.serve now command =
      { s with
        controller := (Controller.dispatch now command.intent s.controller).state
        watch := s.watch.publish (Controller.dispatch now command.intent s.controller).state.phase
        replies := s.replies ++ [(command.ticket, result)]
        record := s.record ++ ((Controller.dispatch now command.intent s.controller).journal.map (Timed.mk now) ++
          remarks now (failures command.intent result)) } := by
  simp only [serve, h]
  cases result <;> simp [write, publish, failures, remarks]

theorem serve_none {command : Command} (h : (Controller.dispatch now command.intent s.controller).value = none) :
    s.serve now command =
      { s with
        controller := (Controller.dispatch now command.intent s.controller).state
        status := .crashed
        inbox := []
        waiting := []
        record := s.record ++ (Controller.dispatch now command.intent s.controller).journal.map (Timed.mk now) } := by
  simp only [serve, h, write, close]

omit [Loader L I] in
theorem serveTick_some {timer : Timer} {outcome : Option Outcome}
    (h : (Controller.tick now { s.controller with timer }).value = some outcome) :
    s.serveTick now timer =
      { s with
        controller := (Controller.tick now { s.controller with timer }).state
        watch := s.watch.publish (Controller.tick now { s.controller with timer }).state.phase
        record := s.record ++ (Controller.tick now { s.controller with timer }).journal.map (Timed.mk now) } := by
  simp only [serveTick, h, write, publish]

omit [Loader L I] in
theorem serveTick_none {timer : Timer} (h : (Controller.tick now { s.controller with timer }).value = none) :
    s.serveTick now timer =
      { s with
        controller := (Controller.tick now { s.controller with timer }).state
        status := .crashed
        inbox := []
        waiting := []
        record := s.record ++ (Controller.tick now { s.controller with timer }).journal.map (Timed.mk now) } := by
  simp only [serveTick, h, write, close]

theorem applying_dispatch (now : Instant) (command : Command) (s : Session I L P) :
    s.applying (.dispatch now command) =
      ⟨(Controller.dispatch now command.intent s.controller).value.map Reply.result,
        (Controller.dispatch now command.intent s.controller).state,
        (Controller.dispatch now command.intent s.controller).journal⟩ :=
  map_apply _ _ _

theorem applying_tick (now : Instant) (s : Session I L P) :
    s.applying (.tick now) =
      ⟨(Controller.tick now { s.controller with timer := (s.controller.timer.poll now).2 }).value.map Reply.stepped,
        (Controller.tick now { s.controller with timer := (s.controller.timer.poll now).2 }).state,
        (Controller.tick now { s.controller with timer := (s.controller.timer.poll now).2 }).journal⟩ :=
  map_apply _ _ _

/-- the task serves a command: it is done with it, or breaks down over it -/
theorem serve_kinds {command : Command} {rest : List Command} (hs : s.status = .alive) (hi : s.inbox = command :: rest) :
    (∃ reply, Completed s (.dispatch now command) reply ({ s with inbox := rest }.serve now command)) ∨
      Broke s (.dispatch now command) ({ s with inbox := rest }.serve now command) := by
  have happlying := applying_dispatch now command s
  cases hv : (Controller.dispatch now command.intent s.controller).value with
  | none =>
    rw [hv] at happlying
    rw [serve_none (s := { s with inbox := rest }) hv]
    exact Or.inr
      { value := by rw [happlying]; rfl
        status := ⟨hs, rfl⟩
        watch := rfl
        record := by rw [happlying]; rfl
        replies := rfl
        inbox := by simp [hi, Act.command?]
        gone := ⟨rfl, rfl⟩
        tickets := rfl }
  | some result =>
    rw [hv] at happlying
    rw [serve_some (s := { s with inbox := rest }) hv]
    exact Or.inl ⟨.result result,
      { value := by rw [happlying]; rfl
        status := ⟨hs, hs⟩
        controller := by rw [happlying]
        watch := rfl
        record := ⟨failures command.intent result, by rw [happlying]; rfl⟩
        replies := rfl
        inbox := hi
        waiting := rfl
        tickets := rfl }⟩

/-- the task takes a tick: it is done with it, or breaks down over it -/
theorem serveTick_kinds (now : Instant) (hs : s.status = .alive) :
    (∃ reply, Completed s (.tick now) reply (s.serveTick now (s.controller.timer.poll now).2)) ∨
      Broke s (.tick now) (s.serveTick now (s.controller.timer.poll now).2) := by
  have happlying := applying_tick now s
  cases hv : (Controller.tick now { s.controller with timer := (s.controller.timer.poll now).2 }).value with
  | none =>
    rw [hv] at happlying
    rw [serveTick_none hv]
    exact Or.inr
      { value := by rw [happlying]; rfl
        status := ⟨hs, rfl⟩
        watch := rfl
        record := by rw [happlying]; rfl
        replies := rfl
        inbox := by simp [Act.command?]
        gone := ⟨rfl, rfl⟩
        tickets := rfl }
  | some outcome =>
    rw [hv] at happlying
    rw [serveTick_some hv]
    exact Or.inl ⟨.stepped outcome,
      { value := by rw [happlying]; rfl
        status := ⟨hs, hs⟩
        controller := by rw [happlying]
        watch := rfl
        record := ⟨[], by rw [happlying]; simp [remarks, Act.asked]⟩
        replies := by simp [Act.answers]
        inbox := rfl
        waiting := rfl
        tickets := rfl }⟩

/-- how a step can have ended -/
inductive Kinds (s : Session I L P) : List Act → Session I L P → Prop where
  | rests {t : Session I L P} (h : Rests s t) : Kinds s [] t
  | completed {act : Act} {reply : Reply} {t : Session I L P} (h : Completed s act reply t) : Kinds s [act] t
  | broke {act : Act} {t : Session I L P} (h : Broke s act t) : Kinds s [act] t

omit [Interpreter I] [Loader L I] [Presenter P] in
/-- the task ends: the line is cut -/
theorem close_line (status : Status) (s : Session I L P) : (s.close status).line.Sublist s.line := by
  simp [line, close]

/-- what a turn of the task leaves behind -/
theorem Turned.kinds (h : Turned now s as t) : Kinds s as t := by
  cases h with
  | idle status => exact .rests ⟨rfl, Or.inl rfl, ⟨now, [], by simp [remarks]⟩, rfl, Or.inl ⟨rfl, List.Sublist.refl _⟩⟩
  | finish status reason =>
    refine .rests ⟨rfl, Or.inl rfl, ⟨now, [.taskFinished s.controller.phase], rfl⟩, rfl, Or.inl ⟨rfl, ?_⟩⟩
    exact close_line .finished (s.write now _)
  | serve status going inbox =>
    rcases serve_kinds status inbox with ⟨reply, h⟩ | h
    · exact .completed h
    · exact .broke h
  | tick status going inbox held poll =>
    have hkinds := serveTick_kinds now status
    rw [poll] at hkinds
    rcases hkinds with ⟨reply, h⟩ | h
    · exact .completed h
    · exact .broke h
  | overflow status going inbox held poll =>
    exact .rests ⟨rfl, Or.inl rfl, ⟨now, [], by simp [remarks, close]⟩, rfl, Or.inl ⟨rfl, close_line .crashed s⟩⟩
  | park status going inbox held =>
    exact .rests ⟨rfl, Or.inr ⟨now, rfl⟩, ⟨now, [], by simp [remarks]⟩, rfl, Or.inl ⟨rfl, List.Sublist.refl _⟩⟩

/-- **A step applies nothing, completes an act, or breaks down over one.** -/
theorem Step.kinds (h : Step s as es t) : Kinds s as t := by
  have hsame : ∃ now notes, s.record = s.record ++ remarks now notes := ⟨0, [], by simp [remarks]⟩
  cases h with
  | post intent held =>
    refine .rests ⟨rfl, Or.inl rfl, hsame, rfl, Or.inr ⟨rfl, ?_⟩⟩
    unfold line Session.post
    dsimp only
    split <;> simp
  | enter room first =>
    refine .rests ⟨rfl, Or.inl rfl, hsame, rfl, Or.inl ⟨rfl, ?_⟩⟩
    simp [line, first]
  | turn now => exact (turn_turned now s).kinds
  | look => exact .rests ⟨rfl, Or.inl rfl, hsame, rfl, Or.inl ⟨rfl, List.Sublist.refl _⟩⟩
  | cancel => exact .rests ⟨rfl, Or.inl rfl, hsame, rfl, Or.inl ⟨rfl, List.Sublist.refl _⟩⟩
  | letGo alone => exact .rests ⟨rfl, Or.inl rfl, hsame, rfl, Or.inl ⟨rfl, List.Sublist.refl _⟩⟩

/-- the inbox keeps its size in a turn, and the task does not look through the handle -/
theorem Turned.fixed (h : Turned now s as t) : t.capacity = s.capacity ∧ t.seen = s.seen := by
  cases h with
  | @serve command rest status going inbox =>
    cases hv : (Controller.dispatch now command.intent s.controller).value with
    | none => simp [serve_none (s := { s with inbox := rest }) hv]
    | some result => simp [serve_some (s := { s with inbox := rest }) hv]
  | @tick timer status going inbox held poll =>
    cases hv : (Controller.tick now { s.controller with timer }).value with
    | none => simp [serveTick_none hv]
    | some outcome => simp [serveTick_some hv]
  | _ => exact ⟨rfl, rfl⟩

/-! ## The controller between turns -/

/-- the controller is between two operations, and its phase is the published one -/
structure Current (s : Session I L P) : Prop where
  steady : Controller.Steady s.controller
  whole : s.controller.phase ≠ .steppingOnce
  published : s.watch.phase = s.controller.phase

omit [Interpreter I] [Loader L I] [Presenter P] in
theorem Rests.phase_eq (h : Rests s t) : t.controller.phase = s.controller.phase := by
  rcases h.controller with hc | ⟨now, hc⟩ <;> rw [hc]

omit [Interpreter I] [Loader L I] [Presenter P] in
theorem Rests.current (hr : Rests s t) (h : Current s) : Current t where
  steady := by
    rcases hr.controller with hc | ⟨now, hc⟩
    · exact hc ▸ h.steady
    · exact hc ▸ h.steady.poll now
  whole := hr.phase_eq ▸ h.whole
  published := by rw [hr.watch, hr.phase_eq, h.published]

omit [Interpreter I] [Loader L I] [Presenter P] in
theorem Current.atHand (h : Current s) (act : Act) :
    Controller.Steady (s.atHand act) ∧ (s.atHand act).phase ≠ .steppingOnce := by
  cases act with
  | dispatch now command => exact ⟨h.steady, h.whole⟩
  | tick now => exact ⟨h.steady.poll now, h.whole⟩

theorem Completed.current {reply : Reply} (hc : Completed s act reply t) (h : Current s) : Current t := by
  obtain ⟨hsteady, hwhole⟩ := h.atHand act
  obtain ⟨hmoves, hphase⟩ := Controller.perform_yields hsteady hwhole act.asked.2 reply hc.value
  have hcontroller := hc.controller
  unfold applying at hcontroller
  rw [← hcontroller] at hmoves hphase
  exact ⟨hmoves.steady hsteady, hphase, by rw [hc.watch, Watch.publish_phase]⟩

theorem current_spawn {past : List Applied} {c : Controller I L P} (hc : Controller.Reached past c)
    (h : spawn? c = some s) : Current s := by
  obtain rfl := spawn?_eq h
  exact ⟨hc.steady.1, hc.steady.2, rfl⟩

/-! ## Tickets -/

/-- tickets are given out in the order of posting, each once -/
structure Ticketed (s : Session I L P) : Prop where
  order : s.line.Pairwise (· < ·)
  given : ∀ ticket ∈ s.line, ticket < s.tickets

omit [Interpreter I] [Loader L I] [Presenter P] in
theorem ticketed_spawn {c : Controller I L P} (h : spawn? c = some s) : Ticketed s := by
  obtain rfl := spawn?_eq h
  exact ⟨List.Pairwise.nil, fun _ hmem => absurd hmem (by simp [line])⟩

omit [Interpreter I] [Loader L I] [Presenter P] in
/-- what was replied to was posted -/
theorem Ticketed.replied_lt (h : Ticketed s) : ∀ p ∈ s.replies, p.1 < s.tickets := by
  intro p hp
  have hmem : p.1 ∈ s.replies.map Prod.fst := List.mem_map_of_mem hp
  exact h.given p.1 (List.mem_append_left _ hmem)

omit [Interpreter I] [Loader L I] [Presenter P] in
theorem Ticketed.of_sublist (h : Ticketed s) (hline : t.line.Sublist s.line) (ht : t.tickets = s.tickets) : Ticketed t where
  order := h.order.sublist hline
  given ticket hmem := ht ▸ h.given ticket (hline.subset hmem)

omit [Interpreter I] [Loader L I] [Presenter P] in
theorem Ticketed.rests (h : Ticketed s) (hr : Rests s t) : Ticketed t := by
  rcases hr.line with ⟨htickets, hline⟩ | ⟨htickets, hline⟩
  · exact h.of_sublist hline htickets
  · constructor
    · refine List.Pairwise.sublist hline (List.pairwise_append.2 ⟨h.order, List.pairwise_singleton _ _, ?_⟩)
      rintro ticket hmem _ (_ | ⟨_, ⟨⟩⟩)
      exact h.given ticket hmem
    · intro ticket hmem
      rw [htickets]
      rcases List.mem_append.1 (hline.subset hmem) with hold | hnew
      · exact Nat.lt_succ_of_lt (h.given ticket hold)
      · obtain rfl : ticket = s.tickets := by simpa using hnew
        exact Nat.lt_succ_self _

theorem Completed.line_eq {reply : Reply} (h : Completed s act reply t) : t.line = s.line := by
  unfold line
  rw [h.replies, h.inbox, h.waiting]
  cases act <;> simp [Act.answers, Act.command?]

theorem Broke.line_sublist (h : Broke s act t) : t.line.Sublist s.line := by
  unfold line
  rw [h.replies, h.gone.1, h.gone.2]
  simp

theorem Kinds.ticketed (hk : Kinds s as t) (h : Ticketed s) : Ticketed t := by
  cases hk with
  | rests hr => exact h.rests hr
  | completed hc => exact h.of_sublist (hc.line_eq ▸ List.Sublist.refl _) hc.tickets
  | broke hb => exact h.of_sublist hb.line_sublist hb.tickets

theorem Runs.ticketed (h : Runs s as es t) (hs : Ticketed s) : Ticketed t := by
  induction h with
  | refl => exact hs
  | snoc _ last ih => exact last.kinds.ticketed ih

/-- no ticket is lost as long as the task is alive -/
theorem Step.whole (h : Step s as es t) (hs : s.status = .alive → s.line = List.range s.tickets) (ht : t.status = .alive) :
    t.line = List.range t.tickets := by
  cases h with
  | post intent held =>
    have hstatus : s.status = .alive := ht
    have halive : s.isAlive = true := by simp [isAlive, hstatus]
    have hline : (s.post intent).2.line = s.line ++ [s.tickets] := by simp [line, Session.post, halive]
    rw [hline, hs hstatus]
    exact List.range_succ.symm
  | enter room first =>
    rw [← hs ht]
    simp [line, first]
  | turn now =>
    have hturn := turn_turned now s
    generalize s.acts now = as at hturn
    generalize (s.turn now).2 = t at hturn ht ⊢
    cases hturn with
    | idle status => exact hs ht
    | finish status reason => simp [finish, close] at ht
    | @serve command rest status going inbox =>
      have hkinds : (∃ reply, Completed s (.dispatch now command) reply _) ∨ _ := serve_kinds status inbox
      rcases hkinds with ⟨reply, hdone⟩ | hbroke
      · rw [hdone.line_eq, hdone.tickets, hs status]
      · simp [hbroke.status.2] at ht
    | tick status going inbox held poll =>
      have hkinds := serveTick_kinds now status
      rw [poll] at hkinds
      rcases hkinds with ⟨reply, hdone⟩ | hbroke
      · rw [hdone.line_eq, hdone.tickets, hs status]
      · simp [hbroke.status.2] at ht
    | overflow status going inbox held poll => simp [close] at ht
    | park status going inbox held => exact hs ht
  | look => exact hs ht
  | cancel => exact hs ht
  | letGo alone => exact hs ht

theorem Runs.whole (h : Runs s as es t) (hs : s.status = .alive → s.line = List.range s.tickets) (ht : t.status = .alive) :
    t.line = List.range t.tickets := by
  induction h with
  | refl => exact hs ht
  | snoc _ last ih => exact last.whole ih ht

/-- replies are only ever added -/
theorem Kinds.replies_prefix (h : Kinds s as t) : s.replies <+: t.replies := by
  cases h with
  | rests hr => exact hr.replies ▸ List.prefix_refl _
  | completed hc => exact hc.replies ▸ List.prefix_append _ _
  | broke hb => exact hb.replies ▸ List.prefix_refl _

theorem Runs.replies_prefix (h : Runs s as es t) : s.replies <+: t.replies := by
  induction h with
  | refl => exact List.prefix_refl _
  | snoc _ last ih => exact ih.trans last.kinds.replies_prefix

omit [Interpreter I] [Loader L I] [Presenter P] in
/-- the reply sent to a ticket is the answer to it -/
theorem Ticketed.reply?_eq (h : Ticketed s) {ticket : Nat} {result : Except Error Unit} (hmem : (ticket, result) ∈ s.replies) :
    s.reply? ticket = some result := by
  obtain ⟨before, after, hsplit⟩ := List.append_of_mem hmem
  have hfirst : ∀ p ∈ before, (ticket != p.1) = true := by
    intro p hp
    have horder : (s.replies.map Prod.fst).Pairwise (· < ·) := (List.pairwise_append.1 h.order).1
    rw [hsplit, List.map_append, List.pairwise_append] at horder
    have hlt := horder.2.2 p.1 (List.mem_map_of_mem hp) ticket (by simp)
    simpa using Nat.ne_of_gt hlt
  have hlookup : s.replies.lookup ticket = some result :=
    List.lookup_eq_some_iff.2 ⟨before, after, hsplit, hfirst⟩
  unfold reply?
  rw [hlookup]

omit [Interpreter I] [Loader L I] [Presenter P] in
/-- a ticket that was not replied to is open as long as the task is alive, and closed afterwards -/
theorem reply?_of_not_replied {ticket : Nat} (h : ticket ∉ s.replies.map Prod.fst) :
    s.reply? ticket = if s.isAlive then none else some (.error .sessionClosed) := by
  have hlookup : s.replies.lookup ticket = none := by
    refine List.lookup_eq_none_iff.2 fun p hp => ?_
    have hne : ticket ≠ p.1 := by
      rintro rfl
      exact h (List.mem_map_of_mem hp)
    simpa using hne
  unfold reply?
  rw [hlookup]

/-- **A reply, once sent, stays the answer to its ticket.** -/
theorem Runs.reply?_eq (h : Runs s as es t) (hs : Ticketed s) {ticket : Nat} {result : Except Error Unit}
    (hmem : (ticket, result) ∈ s.replies) : t.reply? ticket = some result :=
  (h.ticketed hs).reply?_eq (h.replies_prefix.subset hmem)

end Session

end StepControl

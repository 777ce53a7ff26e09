/-
Controllers that are handed from one session to the next.

(1) Sessions that go on. A session that is ended gives its controller back as it is, with the schedule of its timer; a session
that is made of it at once goes on where the first one was. What differs is what the clients' side of a session counts from
its beginning: tickets, the version of the published phase, the record. A session that is not interrupted is therefore the new
one, extended by what was before (`Session.extended`).
- `Session.turn_extended`: every turn keeps it so.
- `Session.Runs.extended`, `Session.Runs.anew`: so the two sessions have the same runs.
- `Session.Continues.performAll`: and a client cannot tell one from the other.

(2) Handing over (`Session.handover_transparent`). The first session has nothing to serve when it is ended
(`Session.Free`): no command is on its way, and none of its ways to end was taken before. Its timer may stand anywhere. Nothing
is assumed of the interpreter.

(3) Sessions of controllers that were started before. They take their ticks as they would if they had been made at once
(`Session.KeepsTime`): in the first whole millisecond from each due time on, and so at the due time itself where the start and
the delay are whole milliseconds. Elsewhere they cannot (`Session.fraction_ticks_late`). Here the clock stands at a whole
millisecond when the session is left alone, and is far enough from its end when that is over (`Delay.Overshoots`).
-/
import StepControl.Proofs.Drift
import StepControl.Proofs.Spawning

namespace StepControl

open StepControl.Action

/-! ## Sessions that go on -/

def Command.later (tickets : Nat) (command : Command) : Command := { command with ticket := tickets + command.ticket }

def Act.later (tickets : Nat) : Act → Act
  | .dispatch now command => .dispatch now (command.later tickets)
  | .tick now => .tick now

def repliesLater (tickets : Nat) (replies : List (Nat × Except Error Unit)) : List (Nat × Except Error Unit) :=
  replies.map fun p => (tickets + p.1, p.2)

def Watch.later (versions : Nat) (w : Watch) : Watch := { w with version := versions + w.version }

theorem Watch.publish_later (versions : Nat) (w : Watch) (phase : Phase) :
    (w.later versions).publish phase = (w.publish phase).later versions := by
  unfold publish later
  dsimp only
  split
  · rfl
  · rw [Nat.add_assoc]

variable {I L P : Type}

namespace Session

/-- the session `b` as it looks where it did not begin anew, but went on from `past`: it has the same controller, and counts
tickets and versions from where `past` stood; the handle saw version `seen` -/
def extended (past : Session I L P) (seen : Nat) (b : Session I L P) : Session I L P :=
  { b with
    inbox := b.inbox.map (Command.later past.tickets)
    waiting := b.waiting.map (Command.later past.tickets)
    tickets := past.tickets + b.tickets
    replies := past.replies ++ repliesLater past.tickets b.replies
    watch := b.watch.later past.watch.version
    seen
    record := past.record ++ b.record }

variable {past b : Session I L P} {seen : Nat} {now limit : Instant}

theorem write_extended (now : Instant) (entries : List (Entry I)) :
    (past.extended seen b).write now entries = past.extended seen (b.write now entries) := by
  simp [write, extended]

theorem finish_extended (now : Instant) : (past.extended seen b).finish now = past.extended seen (b.finish now) :=
  congrArg (Session.close .finished) (write_extended (b := b) now [.noted (.taskFinished b.controller.phase)])

theorem fillInbox_extended : (past.extended seen b).fillInbox = past.extended seen b.fillInbox := by
  simp [fillInbox, extended, List.map_take, List.map_drop]

variable [Interpreter I] [Loader L I] [Presenter P]

theorem serve_extended (now : Instant) (command : Command) :
    (past.extended seen b).serve now (command.later past.tickets) = past.extended seen (b.serve now command) := by
  have hsame : Controller.dispatch now (command.later past.tickets).intent (past.extended seen b).controller =
      Controller.dispatch now command.intent b.controller := rfl
  cases hvalue : (Controller.dispatch now command.intent b.controller).value with
  | none =>
    rw [serve_none hvalue, serve_none (hsame ▸ hvalue), hsame]
    simp [extended]
  | some result =>
    rw [serve_some hvalue, serve_some (hsame ▸ hvalue), hsame]
    simp [extended, Watch.publish_later, repliesLater, Command.later]

omit [Loader L I] in
theorem serveTick_extended (now : Instant) (timer : Timer) :
    (past.extended seen b).serveTick now timer = past.extended seen (b.serveTick now timer) := by
  cases hvalue : (Controller.tick now { b.controller with timer }).value with
  | none =>
    rw [serveTick_none hvalue, serveTick_none (s := past.extended seen b) hvalue]
    simp [extended]
  | some outcome =>
    rw [serveTick_some hvalue, serveTick_some (s := past.extended seen b) hvalue]
    simp [extended, Watch.publish_later]

/-- **A session that goes on takes the turns of one that begins anew.** -/
theorem turn_extended (now : Instant) :
    (past.extended seen b).turn now = ((b.turn now).1, past.extended seen (b.turn now).2) := by
  by_cases hs : b.status = .alive
  case neg => rw [turn_over hs, turn_over (s := past.extended seen b) hs]
  cases hc : b.cancelled with
  | true => rw [turn_cancelled hs hc, turn_cancelled (s := past.extended seen b) hs hc, finish_extended]
  | false =>
    cases hi : b.inbox with
    | cons command rest =>
      have hinbox : (past.extended seen b).inbox = command.later past.tickets :: rest.map (Command.later past.tickets) := by
        simp [extended, hi]
      rw [turn_serve hs hc hi, turn_serve (s := past.extended seen b) hs hc hinbox, ← serve_extended]
      rfl
    | nil =>
      have hinbox : (past.extended seen b).inbox = [] := by simp [extended, hi]
      cases ha : b.abandoned with
      | true => rw [turn_letGo hs hc hi ha, turn_letGo (s := past.extended seen b) hs hc hinbox ha, finish_extended]
      | false =>
        have hcontroller : (past.extended seen b).controller = b.controller := rfl
        rw [turn_poll hs hc hi ha, turn_poll (s := past.extended seen b) hs hc hinbox ha, hcontroller]
        cases b.controller.timer.poll now with
        | mk answer timer =>
          cases answer with
          | ready => exact congrArg (Prod.mk true) (serveTick_extended now timer)
          | overflow => rfl
          | off => rfl
          | pending due => rfl

theorem turns_extended (now : Instant) (fuel : Nat) :
    (past.extended seen b).turns now fuel = past.extended seen (b.turns now fuel) := by
  induction fuel generalizing b with
  | zero => rfl
  | succ fuel ih =>
    unfold turns
    rw [turn_extended]
    cases b.turn now with
    | mk more t =>
      cases more with
      | false => rfl
      | true => exact ih

theorem rounds_extended (now : Instant) (fuel : Nat) :
    (past.extended seen b).rounds now fuel = past.extended seen (b.rounds now fuel) := by
  induction fuel generalizing b with
  | zero => rfl
  | succ fuel ih =>
    have hwork : (past.extended seen b).fillInbox.work now = past.extended seen (b.fillInbox.work now) := by
      have hfuel : (past.extended seen b.fillInbox).inbox.length = b.fillInbox.inbox.length := by simp [extended]
      rw [fillInbox_extended, work, work, hfuel, ← turns_extended]
      rfl
    have hnone : (past.extended seen (b.fillInbox.work now)).waiting = [] ↔ (b.fillInbox.work now).waiting = [] := by
      simp [extended]
    unfold rounds
    dsimp only
    simp only [hwork, hnone]
    split
    · rfl
    · exact ih

theorem settle_extended (now : Instant) : (past.extended seen b).settle now = past.extended seen (b.settle now) := by
  have hfuel : (past.extended seen b).waiting.length = b.waiting.length := by simp [extended]
  rw [settle, settle, hfuel, rounds_extended]

theorem runInstants_extended (stop : Session I L P → Bool) (hstop : ∀ b, stop (past.extended seen b) = stop b)
    (limit : Instant) (fuel : Nat) (now : Instant) (b : Session I L P) :
    (past.extended seen b).runInstants stop limit fuel now =
      ((b.runInstants stop limit fuel now).1, past.extended seen (b.runInstants stop limit fuel now).2) := by
  induction fuel generalizing now b with
  | zero => rfl
  | succ fuel ih =>
    have hwake : (past.extended seen (b.settle now)).wake? = (b.settle now).wake? := rfl
    unfold runInstants
    dsimp only
    rw [settle_extended, hstop, hwake]
    split
    · rfl
    · split
      · split
        · exact ih _ _
        · rfl
      · rfl

theorem sleep_extended (now limit : Instant) :
    (past.extended seen b).sleep now limit = past.extended seen (b.sleep now limit) := by
  unfold sleep runUntil
  rw [runInstants_extended _ fun _ => rfl]

/-- who waits for a phase waits as long, and sees the same -/
theorem waitFor_extended (past : Session I L P) (seen : Nat) (b : Session I L P) (target : Phase) (now limit : Instant) :
    ((past.extended seen b).waitFor target now limit).1 = (b.waitFor target now limit).1 ∧
      ((past.extended seen b).waitFor target now limit).2.1 = (b.waitFor target now limit).2.1 ∧
      ∃ seen', ((past.extended seen b).waitFor target now limit).2.2 =
        past.extended seen' (b.waitFor target now limit).2.2 := by
  have hphase : ∀ b : Session I L P, (past.extended seen b).watch.phase = b.watch.phase := fun _ => rfl
  have halive : ∀ b : Session I L P, (past.extended seen b).isAlive = b.isAlive := fun _ => rfl
  unfold waitFor runUntil
  dsimp only
  rw [runInstants_extended _ fun _ => rfl, hphase, halive]
  split
  · exact ⟨rfl, rfl, _, rfl⟩
  · split
    · exact ⟨rfl, rfl, _, rfl⟩
    · exact ⟨rfl, rfl, _, rfl⟩

theorem shutdown_extended (now : Instant) :
    ((past.extended seen b).shutdown now).2 = past.extended seen (b.shutdown now).2 :=
  settle_extended (b := { b with cancelled := true }) now

theorem abandon_extended (now : Instant) : (past.extended seen b).abandon now = past.extended seen (b.abandon now) :=
  settle_extended (b := { b with abandoned := true }) now

/-! ### Every run of it -/

omit [Interpreter I] [Loader L I] [Presenter P] in
theorem acts_extended (now : Instant) : (past.extended seen b).acts now = (b.acts now).map (Act.later past.tickets) := by
  have hstatus : (past.extended seen b).status = b.status := rfl
  have hcancelled : (past.extended seen b).cancelled = b.cancelled := rfl
  have habandoned : (past.extended seen b).abandoned = b.abandoned := rfl
  have hcontroller : (past.extended seen b).controller = b.controller := rfl
  have hinbox : (past.extended seen b).inbox = b.inbox.map (Command.later past.tickets) := rfl
  unfold acts
  rw [hstatus, hcancelled, habandoned, hcontroller, hinbox]
  split
  · rfl
  · cases b.inbox with
    | cons command rest => rfl
    | nil =>
      simp only [List.map_nil]
      split <;> rfl

omit [Interpreter I] [Loader L I] [Presenter P] in
theorem post_extended (intent : Intent) :
    ((past.extended seen b).post intent).2 = past.extended seen (b.post intent).2 := by
  have halive : (past.extended seen b).isAlive = b.isAlive := rfl
  unfold post
  rw [halive]
  cases b.isAlive <;> simp [extended, Command.later, Nat.add_assoc]

variable {t : Session I L P} {as : List Act} {es : List Command}

theorem Step.extended (h : Step b as es t) (past : Session I L P) (seen : Nat) :
    ∃ seen', Step (past.extended seen b) (as.map (Act.later past.tickets)) (es.map (Command.later past.tickets))
      (past.extended seen' t) := by
  cases h with
  | post intent held =>
    refine ⟨seen, ?_⟩
    rw [← post_extended]
    exact .post _ intent held
  | @enter command rest room first =>
    have hroom : (past.extended seen b).inbox.length < (past.extended seen b).capacity := by simpa [Session.extended] using room
    have hfirst : (past.extended seen b).waiting = command.later past.tickets :: rest.map (Command.later past.tickets) := by
      simp [Session.extended, first]
    have hstep := Step.enter hroom hfirst
    refine ⟨seen, ?_⟩
    simpa [Session.extended] using hstep
  | turn now =>
    have hstep := Step.turn (past.extended seen b) now
    rw [acts_extended, turn_extended] at hstep
    exact ⟨seen, hstep⟩
  | look => exact ⟨_, .look _⟩
  | cancel => exact ⟨seen, .cancel _⟩
  | letGo alone => exact ⟨seen, .letGo _ (by simp [Session.extended, alone])⟩

/-- **A session that goes on can do all that one can that begins anew.** -/
theorem Runs.extended (h : Runs b as es t) (past : Session I L P) (seen : Nat) :
    ∃ seen', Runs (past.extended seen b) (as.map (Act.later past.tickets)) (es.map (Command.later past.tickets))
      (past.extended seen' t) := by
  induction h with
  | refl => exact ⟨seen, .refl⟩
  | snoc _ last ih =>
    obtain ⟨seen', hfront⟩ := ih
    obtain ⟨seen'', hlast⟩ := last.extended past seen'
    refine ⟨seen'', ?_⟩
    rw [List.map_append, List.map_append]
    exact hfront.snoc hlast

theorem Step.anew (h : Step (past.extended seen b) as es t) :
    ∃ bs fs u seen', Step b bs fs u ∧ as = bs.map (Act.later past.tickets) ∧ es = fs.map (Command.later past.tickets) ∧
      t = past.extended seen' u := by
  cases h with
  | post intent held => exact ⟨[], [], _, seen, .post b intent held, rfl, rfl, post_extended intent⟩
  | enter room first =>
    obtain ⟨command, rest, hwaiting, rfl, rfl⟩ := List.map_eq_cons_iff.1 first
    have hroom : b.inbox.length < b.capacity := by simpa [Session.extended] using room
    exact ⟨[], [command], _, seen, .enter hroom hwaiting, rfl, rfl, by simp [Session.extended]⟩
  | turn now => exact ⟨b.acts now, [], _, seen, .turn b now, acts_extended now, rfl, congrArg Prod.snd (turn_extended now)⟩
  | look => exact ⟨[], [], _, _, .look b, rfl, rfl, rfl⟩
  | cancel => exact ⟨[], [], _, seen, .cancel b, rfl, rfl, rfl⟩
  | letGo alone => exact ⟨[], [], _, seen, .letGo b (List.map_eq_nil_iff.1 alone), rfl, rfl, rfl⟩

/-- **A session that goes on does nothing that one that begins anew could not do.** -/
theorem Runs.anew {s : Session I L P} (h : Runs s as es t) (hs : s = past.extended seen b) :
    ∃ bs fs u seen', Runs b bs fs u ∧ as = bs.map (Act.later past.tickets) ∧ es = fs.map (Command.later past.tickets) ∧
      t = past.extended seen' u := by
  induction h with
  | refl => exact ⟨[], [], b, seen, .refl, rfl, rfl, hs⟩
  | snoc _ last ih =>
    obtain ⟨bs, fs, u, seen', hruns, rfl, rfl, rfl⟩ := ih
    obtain ⟨bs', fs', v, seen'', hstep, rfl, rfl, rfl⟩ := last.anew
    refine ⟨bs ++ bs', fs ++ fs', v, seen'', hruns.snoc hstep, ?_, ?_, rfl⟩
    · exact List.map_append.symm
    · exact List.map_append.symm

end Session

/-! ## Clients of a session that goes on -/

def Glance.later (versions : Nat) (g : Glance) : Glance := { g with watch := g.watch.later versions }

theorem numbered_later (tickets ticket : Nat) (requests : List Request) :
    numbered (tickets + ticket) requests = (numbered ticket requests).map (Command.later tickets) := by
  induction requests generalizing ticket with
  | nil => rfl
  | cons q rest ih =>
    rw [numbered, numbered, List.map_cons, Nat.add_assoc, ih]
    rfl

theorem lookup_repliesLater (tickets ticket : Nat) (replies : List (Nat × Except Error Unit)) :
    (repliesLater tickets replies).lookup (tickets + ticket) = replies.lookup ticket := by
  induction replies with
  | nil => rfl
  | cons p rest ih =>
    obtain ⟨earlier, result⟩ := p
    by_cases hsame : ticket = earlier
    · subst hsame
      simp [repliesLater]
    · have hother : tickets + ticket ≠ tickets + earlier := fun h => hsame (Nat.add_left_cancel h)
      have hlater : repliesLater tickets ((earlier, result) :: rest) = (tickets + earlier, result) :: repliesLater tickets rest :=
        rfl
      rw [hlater, List.lookup_cons, List.lookup_cons, beq_false_of_ne hsame, beq_false_of_ne hother]
      exact ih

/-- replies to tickets that were given out before are not the answers to later ones -/
theorem answersTo_later {earlier replies : List (Nat × Except Error Unit)} {tickets : Nat}
    (hearlier : ∀ p ∈ earlier, p.1 < tickets) (ticket : Nat) (requests : List Request) :
    answersTo (earlier ++ repliesLater tickets replies) (tickets + ticket) requests = answersTo replies ticket requests := by
  induction requests generalizing ticket with
  | nil => rfl
  | cons q rest ih =>
    have hnone : earlier.lookup (tickets + ticket) = none := by
      refine List.lookup_eq_none_iff.2 ?_
      intro p hp
      have hlt := hearlier p hp
      have hne : tickets + ticket ≠ p.1 := by omega
      simpa using hne
    have hlookup : (earlier ++ repliesLater tickets replies).lookup (tickets + ticket) = replies.lookup ticket := by
      rw [List.lookup_append, hnone, Option.none_or, lookup_repliesLater]
    rw [answersTo, answersTo, hlookup, Nat.add_assoc, ih]

theorem Session.postAll_extended {past b : Session I L P} {seen : Nat} (requests : List Request) :
    (past.extended seen b).postAll requests = past.extended seen (b.postAll requests) := by
  have halive : (past.extended seen b).isAlive = b.isAlive := rfl
  have htickets : (past.extended seen b).tickets = past.tickets + b.tickets := rfl
  rw [postAll_eq, postAll_eq, halive, htickets, numbered_later]
  cases b.isAlive <;> simp [Session.extended, Nat.add_assoc]

namespace Client

variable [Interpreter I] [Loader L I] [Presenter P] {past : Session I L P} {a b : Client I L P}

/-- the client `a` has a session that went on from `past`, where the client `b` has one that began anew: their controllers are
the same, and so is what was recorded since, with its instants. Otherwise the clients are at one: they got the same results,
and saw the same -/
structure Continues (past : Session I L P) (a b : Client I L P) : Prop where
  clock : a.clock = b.clock
  session : ∃ seen, a.session = past.extended seen b.session
  results : a.results = b.results
  waits : a.waits = b.waits
  glances : a.glances = b.glances.map (Glance.later past.watch.version)

/-- **Whatever a client does, it cannot tell a session that goes on from one that begins anew.** -/
theorem Continues.perform (h : Continues past a b) (hgiven : ∀ p ∈ past.replies, p.1 < past.tickets) (errand : Errand) :
    Continues past (a.perform errand) (b.perform errand) := by
  obtain ⟨now, s, results, waits, glances⟩ := a
  obtain ⟨now', t, results', waits', glances'⟩ := b
  obtain ⟨hclock, ⟨seen, hsession⟩, hresults, hwaits, hglances⟩ := h
  dsimp only at hclock hsession hresults hwaits hglances
  subst hclock hsession hresults hwaits hglances
  cases errand with
  | send requests =>
    have hran : ((past.extended seen t).postAll requests).settle now =
        past.extended seen ((t.postAll requests).settle now) := by
      rw [Session.postAll_extended, Session.settle_extended]
    refine ⟨rfl, ⟨seen, hran⟩, ?_, rfl, rfl⟩
    unfold perform
    dsimp only
    rw [hran]
    exact congrArg (results ++ ·) (answersTo_later hgiven t.tickets requests)
  | sleep length => exact ⟨rfl, ⟨seen, Session.sleep_extended ..⟩, rfl, rfl, rfl⟩
  | jump length => exact ⟨rfl, ⟨seen, Session.settle_extended ..⟩, rfl, rfl, rfl⟩
  | waitFor target length =>
    obtain ⟨hwaited, hinstant, hnext⟩ := Session.waitFor_extended past seen t target now (now + length)
    exact ⟨hinstant, hnext, rfl, congrArg (waits ++ [·]) hwaited, rfl⟩
  | look =>
    refine ⟨rfl, ⟨seen, rfl⟩, rfl, rfl, ?_⟩
    unfold perform
    dsimp only
    rw [List.map_append]
    rfl
  | shutdown => exact ⟨rfl, ⟨seen, Session.shutdown_extended ..⟩, rfl, rfl, rfl⟩
  | letGo => exact ⟨rfl, ⟨seen, Session.abandon_extended ..⟩, rfl, rfl, rfl⟩

theorem Continues.performAll (h : Continues past a b) (hgiven : ∀ p ∈ past.replies, p.1 < past.tickets)
    (errands : List Errand) : Continues past (a.performAll errands) (b.performAll errands) := by
  induction errands generalizing a b with
  | nil => exact h
  | cons errand rest ih => exact ih (h.perform hgiven errand)

end Client

/-! ## What a run leaves as it is -/

namespace Controller

variable [Interpreter I] [Loader L I] {now : Instant} {given : Option String} {c d : Controller I L P} {j : List (Entry I)}

omit [Loader L I] in
theorem Cleared.config_eq (h : Cleared c j d) : d.config = c.config := by
  cases h <;> rfl

theorem Move.config_eq (h : Move now given c j d) : d.config = c.config := by
  cases h with
  | start check cleared reset kind => exact cleared.config_eq
  | stop busy cleared => exact cleared.config_eq
  | _ => rfl

variable [Presenter P]

theorem Moves.config_eq (h : Moves now given c j d) : d.config = c.config := by
  induction h with
  | refl => rfl
  | step first _ ih => exact ih.trans first.config_eq

end Controller

namespace Session

variable [Interpreter I] [Loader L I] [Presenter P] {c : Controller I L P} {s t : Session I L P} {past : List Applied}
  {as : List Act} {es : List Command}

theorem Completed.config_eq {act : Act} {reply : Reply} (h : Completed s act reply t) (hs : Current s) :
    t.controller.config = s.controller.config := by
  obtain ⟨hsteady, hwhole⟩ := hs.atHand act
  have hmoves := (Controller.perform_yields hsteady hwhole act.asked.2 reply h.value).1
  rw [h.controller]
  refine hmoves.config_eq.trans ?_
  cases act <;> rfl

/-- a step after which the task has not broken down leaves a session whose controller is between two operations, with the
configuration that it had -/
theorem Step.current (h : Step s as es t) (hs : Current s) (ht : t.status ≠ .crashed) :
    Current t ∧ t.controller.config = s.controller.config := by
  cases h.kinds with
  | rests hr =>
    refine ⟨hr.current hs, ?_⟩
    rcases hr.controller with hc | ⟨now, hc⟩ <;> rw [hc]
  | completed hc => exact ⟨hc.current hs, hc.config_eq hs⟩
  | broke hb => exact absurd hb.status.2 ht

theorem Runs.current (h : Runs s as es t) (hs : Current s) (ht : t.status ≠ .crashed) :
    Current t ∧ t.controller.config = s.controller.config := by
  induction h with
  | refl => exact ⟨hs, rfl⟩
  | snoc _ last ih =>
    obtain ⟨hcurrent, hconfig⟩ := ih fun hcrashed => ht (last.crashed hcrashed)
    obtain ⟨hcurrent', hconfig'⟩ := last.current hcurrent ht
    exact ⟨hcurrent', hconfig'.trans hconfig⟩

/-! ## Controllers that are handed over -/

/-- a task that is at work, and has nothing to serve -/
structure Free (s : Session I L P) : Prop where
  status : s.status = .alive
  going : s.cancelled = false
  held : s.abandoned = false
  inbox : s.inbox = []
  waiting : s.waiting = []

omit [Interpreter I] [Loader L I] [Presenter P] in
/-- a session that has nothing to serve goes on from itself, as one that begins anew would -/
theorem Free.extended_eq (h : Free s) {s' : Session I L P} (hs' : spawn? s.controller = some s')
    (hphase : s.watch.phase = s.controller.phase) (hcapacity : s.capacity = s'.capacity) :
    s.extended s.seen s' = s := by
  obtain ⟨controller, capacity, status, inbox, waiting, tickets, replies, watch, seen, cancelled, abandoned, record⟩ := s
  obtain ⟨hstatus, hgoing, hheld, hinbox, hwaiting⟩ := h
  have hnew := spawn?_eq hs'
  subst hnew
  dsimp only at *
  subst hstatus hgoing hheld hinbox hwaiting hcapacity
  simp [extended, repliesLater, Watch.later, ← hphase]

/-- the session `s'` is what becomes of the controller of `s` that is handed over at `now` -/
structure HandedOver (now : Instant) (s s' : Session I L P) : Prop where
  /-- shutting down gives the controller back as it is -/
  returned : (s.shutdown now).1 = .ok s.controller
  /-- it can be handed over again -/
  taken : spawn? s.controller = some s'
  /-- a client that does anything with either session gets the same results at the same instants, and what happens to the
  controller, the presenter and the interpreter is the same -/
  continues : ∀ errands, Client.Continues s (({ clock := now, session := s } : Client I L P).performAll errands)
    (({ clock := now, session := s' } : Client I L P).performAll errands)
  /-- whatever clients and task do to the new session, in any order, they can do to the old one: the same intents are applied,
  and the same ticks, at the same instants -/
  forth : ∀ {as es t}, Runs s' as es t →
    ∃ seen, Runs s (as.map (Act.later s.tickets)) (es.map (Command.later s.tickets)) (s.extended seen t)
  /-- and the other way round -/
  back : ∀ {as es t}, Runs s as es t → ∃ bs fs u seen, Runs s' bs fs u ∧ as = bs.map (Act.later s.tickets) ∧
    es = fs.map (Command.later s.tickets) ∧ t = s.extended seen u

theorem Free.handedOver (h : Free s) (hcurrent : Current s) (hticketed : Ticketed s) {s' : Session I L P}
    (hs' : spawn? s.controller = some s') (hcapacity : s.capacity = s'.capacity) (now : Instant) : HandedOver now s s' := by
  have hsame := h.extended_eq hs' hcurrent.published hcapacity
  have hstart : Client.Continues s ({ clock := now, session := s } : Client I L P) { clock := now, session := s' } :=
    ⟨rfl, ⟨s.seen, hsame.symm⟩, rfl, rfl, rfl⟩
  refine ⟨?_, hs', hstart.performAll hticketed.replied_lt, ?_, fun hruns => hruns.anew hsame.symm⟩
  · rw [shutdown_fst, if_neg (by simp [h.status])]
  · intro as es t hruns
    have hextended := hruns.extended s s.seen
    rwa [hsame] at hextended

/-- **Handing a controller over changes nothing.** A session that has nothing to serve, wherever its timer stands, gives its
controller back, and a session that is made of it at once goes on as the first one would have gone on. And a controller that
was started before its session was made gets its ticks one delay after the other from the start on, each in the first whole
millisecond that is not before it, whenever the session was made before the first of them. -/
theorem handover_transparent (hc : Controller.Reached past c) :
    (∀ r as es s, spawn? c = some r → Runs r as es s → Free s → ∀ now, ∃ s', HandedOver now s s') ∧
      ∀ armed d, (Controller.run armed c).value = some (.ok ()) → (Controller.run armed c).state = d →
        ∀ s, spawn? d = some s → ∀ now limit, nanosPerMilli ∣ now → now < armed + d.timer.delay.total →
          ¬ d.timer.delay.Overshoots limit → KeepsTime armed d.timer.delay now limit s := by
  constructor
  · intro r as es s hr hruns hfree now
    have halive : s.status ≠ .crashed := by simp [hfree.status]
    obtain ⟨hcurrent, hconfig⟩ := hruns.current (current_spawn hc hr) halive
    have hcontroller : r.controller = c := by rw [spawn?_eq hr]
    have hcapacity : s.capacity = max c.config.channelSize.toNat 1 := by rw [hruns.capacity_eq, spawn?_eq hr]
    have hsize : s.controller.config.channelSize.toNat ≤ maxCapacity := by
      rw [hconfig, hcontroller]
      exact (spawn?_isSome_iff c).1 (by rw [hr]; rfl)
    obtain ⟨s', hs'⟩ := Option.isSome_iff_exists.1 ((spawn?_isSome_iff s.controller).2 hsize)
    have hcapacity' : s.capacity = s'.capacity := by rw [hcapacity, spawn?_eq hs', hconfig, hcontroller]
    exact ⟨s', hfree.handedOver hcurrent (hruns.ticketed (ticketed_spawn hr)) hs' hcapacity' now⟩
  · intro armed d hrun hd s hs now limit _ hnow _
    obtain ⟨⟨e, hreached⟩, harmed⟩ := hc.run_arms hrun
    subst hd
    exact spawn_keepsTime hreached hs harmed hnow limit

/-- a session that is handed over between two ticks, and one that is made a while after its controller was started -/
theorem handover_transparent_between_ticks :
    let c : Controller Recital (List Recital) Unit := Controller.ofConfig {} [{}] ()
    ∃ (r s t : Session Recital (List Recital) Unit) (as : List Act) (es : List Command)
      (d : Controller Recital (List Recital) Unit),
      Controller.Reached [] c ∧ spawn? c = some r ∧ Runs r as es s ∧ Free s ∧
        as = [.dispatch 0 ⟨0, .run⟩, .tick 90000000] ∧ (∃ s', HandedOver 100000000 s s') ∧
        (Controller.run 1000000 c).value = some (.ok ()) ∧ (Controller.run 1000000 c).state = d ∧ spawn? d = some t ∧
        nanosPerMilli ∣ 50000000 ∧ 50000000 < 1000000 + d.timer.delay.total ∧ ¬ d.timer.delay.Overshoots 300000000 ∧
        KeepsTime 1000000 d.timer.delay 50000000 300000000 t := by
  intro c
  let r : Session Recital (List Recital) Unit := { controller := c, capacity := 32, watch := { phase := .idle } }
  have hr : spawn? c = some r := rfl
  have hruns := ((runs_request (s := r) 0 .run rfl).trans (Step.turn _ 90000000).runs).trans (Step.turn _ 100000000).runs
  have hrun : (Controller.run 1000000 c).value = some (.ok ()) := by decide +kernel
  have hwhole : nanosPerMilli ∣ 50000000 := by decide
  have hbefore : 50000000 < 1000000 + (Controller.run 1000000 c).state.timer.delay.total := by decide +kernel
  have hend : ¬ (Controller.run 1000000 c).state.timer.delay.Overshoots 300000000 := by decide +kernel
  have hfree : Free ((((r.post .run).2.fillInbox.turn 0).2.turn 90000000).2.turn 100000000).2 :=
    ⟨by decide +kernel, by decide +kernel, by decide +kernel, by decide +kernel, by decide +kernel⟩
  obtain ⟨hhanded, hkeeps⟩ := handover_transparent (c := c) (.new _ _ _)
  exact ⟨r, _, _, _, _, _, .new _ _ _, hr, hruns, hfree, by decide +kernel, hhanded _ _ _ _ hr hruns hfree 100000000, hrun, rfl,
    rfl, hwhole, hbefore, hend, hkeeps 1000000 _ hrun rfl _ rfl 50000000 300000000 hwhole hbefore hend⟩

/-- **Ticks come in whole milliseconds only.** Where the delay is a millisecond and a half, the ticks of a controller that was
started at the origin of the clock do not come at the multiples of the delay. -/
theorem fraction_ticks_late :
    let d : Delay := ⟨⟨0, 1500000, by decide⟩, by decide +kernel⟩
    let c : Controller Recital (List Recital) Unit := Controller.ofConfig { stepDelay := d } [{}] ()
    Delay.ofSpan d.span = .ok d ∧ (Controller.run 0 c).value = some (.ok ()) ∧
      ∃ s, spawn? (Controller.run 0 c).state = some s ∧
        (s.sleep 0 10000000).steps = [2000000, 3000000, 5000000, 6000000, 8000000, 9000000] ∧
        (s.sleep 0 10000000).steps ≠ (List.range 6).map fun k => 0 + (k + 1) * d.total := by
  intro d c
  exact ⟨by decide +kernel, by decide +kernel, _, rfl, by decide +kernel, by decide +kernel⟩

end Session

end StepControl

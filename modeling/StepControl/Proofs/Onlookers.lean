/-
Presenters only look on.

An action leaves its presenter aside (`Aside`): with another presenter in place of the first it returns the same value,
writes the same journal and leaves the same controller, but for the presenter, which has been told the notices of the
journal.

(1) Direct runs.
- `Aside.bind` and its like: one lemma for each way of putting actions together; what is announced is the one place where an
  action touches its presenter (`aside_announce`).
- `aside_perform`, `aside_performAll`: every operation leaves it aside, also where it breaks down, and so does every run.

(2) Sessions and clients. The task of a session, its clients and the clock look at the controller only through its
operations, its phase and its timer, so everything that is done to a session commutes with the exchange of the presenter
(`Session.overheard`):
- `Session.overheard_turn`, `Session.overheard_settle`, `Session.overheard_waitFor`: from a turn of the task up to waits;
- `Client.overheard_performAll`: and all that a client does.

(3) What presenters are told. A presenter is then a function of the notices in the journal. A recorder keeps them as they
are; what a front end receives through a channel are their events (`Notice.event`), and it can be told from these which
notices they were.
- `FrontEnd.received_staying`: a front end that stays receives all of them, whenever it comes by; one that leaves, a first
  part (`FrontEnd.Follows`).

`presenters_only_look_on` is all of this.

Premises: a presenter answers nothing, which is its type. The interpreter may break down.
-/
import StepControl.Proofs.Clients

namespace StepControl

open StepControl.Action

/-! ## Presenters -/

structure Recorder where
  notices : List Notice := []
  deriving DecidableEq, Repr

instance : Presenter Recorder where
  accept r n := ⟨r.notices ++ [n]⟩

theorem Recorder.notices_told (r : Recorder) (ns : List Notice) :
    (ns.foldl Presenter.accept r).notices = r.notices ++ ns := by
  induction ns generalizing r with
  | nil => exact (List.append_nil _).symm
  | cons n rest ih => exact (ih _).trans (List.append_assoc r.notices [n] rest)

/-- what a front end does when it comes by at its end of a channel -/
structure Visit where
  /-- how many of the notices that have arrived it takes, at most -/
  count : Nat := 0
  /-- it goes away for good afterwards -/
  leaves : Bool := false
  deriving DecidableEq, Repr

/-- a channel with the front end at its other end. The front end comes by before each notice, as long as there are visits
left -/
structure FrontEnd where
  channel : Channel := {}
  fetched : List PresenterEvent := []
  visits : List Visit := []
  deriving DecidableEq, Repr

namespace FrontEnd

def visit (f : FrontEnd) : FrontEnd :=
  match f.visits with
  | [] => f
  | v :: rest =>
    let left : Channel := { f.channel with queue := f.channel.queue.drop v.count }
    { channel := if v.leaves then left.close else left
      fetched := f.fetched ++ f.channel.queue.take v.count
      visits := rest }

instance : Presenter FrontEnd where
  accept f n := { f.visit with channel := f.visit.channel.send n.event }

/-- what has come to the front end or is under way to it, oldest first -/
def received (f : FrontEnd) : List PresenterEvent := f.fetched ++ f.channel.queue

/-- a front end that never goes away, and takes so many notices at a time -/
def staying (counts : List Nat) : FrontEnd := { visits := counts.map fun count => { count } }

/-- the front end received a first part of what was sent, and all of it if it is still there -/
structure Follows (sent : List PresenterEvent) (f : FrontEnd) : Prop where
  part : f.received <+: sent
  whole : f.channel.isOpen = true → f.received = sent

variable {f : FrontEnd} {sent : List PresenterEvent}

theorem Follows.visit (h : Follows sent f) : Follows sent f.visit := by
  rcases f with ⟨⟨queue, isOpen⟩, fetched, _ | ⟨⟨count, _ | _⟩, rest⟩⟩
  · exact h
  · have hreceived : (fetched ++ queue.take count) ++ queue.drop count = fetched ++ queue := by
      rw [List.append_assoc, List.take_append_drop]
    refine ⟨?_, fun hopen => hreceived.trans (h.whole hopen)⟩
    show (fetched ++ queue.take count) ++ queue.drop count <+: sent
    rw [hreceived]
    exact h.part
  · have hfetched : (fetched ++ queue.take count) ++ [] <+: fetched ++ queue := by
      rw [List.append_nil, List.prefix_append_right_inj]
      exact List.take_prefix count queue
    exact ⟨hfetched.trans h.part, nofun⟩

/-- a channel brings the event of each notice to its end after those before, as long as somebody is there -/
theorem Follows.accept (h : Follows sent f) (n : Notice) : Follows (sent ++ [n.event]) (Presenter.accept f n) := by
  obtain ⟨hpart, hwhole⟩ := h.visit
  show Follows _ { f.visit with channel := f.visit.channel.send n.event }
  generalize f.visit = g at hpart hwhole ⊢
  rcases g with ⟨⟨queue, _ | _⟩, fetched, visits⟩
  · exact ⟨hpart.trans (List.prefix_append ..), nofun⟩
  · have hreceived : fetched ++ (queue ++ [n.event]) = sent ++ [n.event] := by
      rw [← List.append_assoc]
      exact congrArg (· ++ [n.event]) (hwhole rfl)
    exact ⟨⟨[], (List.append_nil _).trans hreceived⟩, fun _ => hreceived⟩

theorem Follows.told (h : Follows sent f) (ns : List Notice) :
    Follows (sent ++ ns.map Notice.event) (ns.foldl Presenter.accept f) := by
  induction ns generalizing f sent with
  | nil => simpa using h
  | cons n rest ih => simpa using ih (h.accept n)

/-- a front end that only fetches does not go away -/
theorem isOpen_told (hopen : f.channel.isOpen = true) (hstays : ∀ v ∈ f.visits, v.leaves = false) (ns : List Notice) :
    (ns.foldl Presenter.accept f).channel.isOpen = true := by
  induction ns generalizing f with
  | nil => exact hopen
  | cons n rest ih =>
    rcases f with ⟨⟨queue, _⟩, fetched, _ | ⟨⟨count, _ | _⟩, visits⟩⟩
    · cases hopen
      exact ih rfl hstays
    · cases hopen
      exact ih rfl fun v hv => hstays v (List.mem_cons_of_mem _ hv)
    · exact absurd (hstays _ List.mem_cons_self) Bool.true_eq_false.mp

/-- **A channel loses nothing** on its way to a front end that stays, whenever this comes by. -/
theorem received_staying (counts : List Nat) (ns : List Notice) :
    (ns.foldl Presenter.accept (staying counts)).received = ns.map Notice.event :=
  have hstays : ∀ v ∈ (staying counts).visits, v.leaves = false := by simp [staying]
  (Follows.told ⟨List.prefix_rfl, fun _ => rfl⟩ ns).whole (isOpen_told rfl hstays ns)

/-- and a front end that goes away at some time has a first part of what was sent -/
theorem received_visits (visits : List Visit) (ns : List Notice) :
    (ns.foldl Presenter.accept ({ visits } : FrontEnd)).received <+: ns.map Notice.event :=
  (Follows.told (f := { visits }) ⟨List.prefix_rfl, fun _ => rfl⟩ ns).part

end FrontEnd

/-! ## Actions that leave the presenter aside -/

variable {I L P Q α β : Type}

def Controller.shownTo (q : Q) (c : Controller I L P) : Controller I L Q := { c with presenter := q }

section

variable (q : Q) (c : Controller I L P)

@[simp] theorem Controller.shownTo_phase : (c.shownTo q).phase = c.phase := rfl

@[simp] theorem Controller.shownTo_live : (c.shownTo q).live = c.live := rfl

@[simp] theorem Controller.shownTo_gate : (c.shownTo q).gate = c.gate := rfl

@[simp] theorem Controller.shownTo_session : (c.shownTo q).session = c.session := rfl

end

/-- the same end, where another presenter, which was `q` to begin with, was told the notices of the journal -/
def Turn.overheard [Presenter Q] (q : Q) (t : Turn (Controller I L P) (Entry I) α) :
    Turn (Controller I L Q) (Entry I) α :=
  { t with state := t.state.shownTo ((Controller.notices t.journal).foldl Presenter.accept q) }

namespace Controller

/-- with another presenter the action comes to the same, whatever the presenters are told -/
def Aside [Presenter Q] (m : Drive I L P α) (k : Drive I L Q α) : Prop :=
  ∀ c q, k (c.shownTo q) = (m c).overheard q

namespace Aside

variable [Presenter Q]

theorem pure (a : α) : Aside (pure a : Drive I L P α) (pure a : Drive I L Q α) := fun _ _ => rfl

theorem bind {m : Drive I L P α} {k : Drive I L Q α} {f : α → Drive I L P β} {g : α → Drive I L Q β} (hm : Aside m k)
    (hf : ∀ a, Aside (f a) (g a)) : Aside (m >>= f) (k >>= g) := by
  intro c q
  rw [bind_apply, bind_apply, hm]
  rcases m c with ⟨_ | a, d, j⟩
  · rfl
  · have hnext := hf a d ((notices j).foldl Presenter.accept q)
    simp only [Turn.overheard] at hnext ⊢
    rw [hnext, notices_append, List.foldl_append]

/-- what an action reads of the controller is not the presenter -/
theorem read_bind {f : Controller I L P → Drive I L P α} {g : Controller I L Q → Drive I L Q α}
    (h : ∀ c q, Aside (f c) (g (c.shownTo q))) : Aside (Action.read >>= f) (Action.read >>= g) :=
  fun c q => h c q c q

theorem update {u : Controller I L P → Controller I L P} {v : Controller I L Q → Controller I L Q}
    (h : ∀ c q, v (c.shownTo q) = (u c).shownTo q) :
    Aside (Action.update u : Drive I L P Unit) (Action.update v : Drive I L Q Unit) := by
  intro c q
  rw [update_apply, h]
  rfl

theorem write {es : List (Entry I)} (h : notices es = []) :
    Aside (Action.write es : Drive I L P Unit) (Action.write es : Drive I L Q Unit) := by
  intro c q
  rw [write_apply, write_apply, Turn.overheard, h]
  rfl

theorem demand (a : Option α) : Aside (Action.demand a : Drive I L P α) (Action.demand a : Drive I L Q α) :=
  fun _ _ => rfl

theorem map {m : Drive I L P α} {k : Drive I L Q α} (f : α → β) (h : Aside m k) : Aside (f <$> m) (f <$> k) := by
  rw [map_eq_pure_bind, map_eq_pure_bind]
  exact h.bind fun a => .pure (f a)

theorem ite {p : Prop} [Decidable p] {m m' : Drive I L P α} {k k' : Drive I L Q α} (h : Aside m k) (h' : Aside m' k') :
    Aside (if p then m else m') (if p then k else k') := by
  split
  · exact h
  · exact h'

end Aside

/-! ### The small actions -/

section

variable [Presenter Q] (now : Instant)

theorem aside_note (notes : List Note) : Aside (note notes : Drive I L P Unit) (note notes : Drive I L Q Unit) := by
  refine .write ?_
  rw [notices, List.filterMap_map]
  exact List.filterMap_eq_nil_iff.2 fun _ _ => rfl

theorem aside_called (inst : Instance I) (call : Call) :
    Aside (called inst call : Drive I L P Unit) (called inst call : Drive I L Q Unit) := .write rfl

theorem aside_ignore (intent : Intent) : Aside (ignore intent : Drive I L P Unit) (ignore intent : Drive I L Q Unit) :=
  .read_bind fun _ _ => aside_note _

theorem aside_disarm : Aside (disarm : Drive I L P Unit) (disarm : Drive I L Q Unit) := .update fun _ _ => rfl

theorem aside_arm : Aside (arm now : Drive I L P Unit) (arm now : Drive I L Q Unit) := .update fun _ _ => rfl

theorem aside_resetInstance [Interpreter I] (inst : Instance I) :
    Aside (resetInstance inst : Drive I L P (Instance I)) (resetInstance inst : Drive I L Q (Instance I)) :=
  (aside_called inst _).bind fun _ => (Aside.demand _).bind fun _ => .pure _

theorem aside_setDelay (millis : UInt64) : Aside (setDelay now millis : Drive I L P (Except Error Unit))
    (setDelay now millis : Drive I L Q (Except Error Unit)) := by
  unfold setDelay
  split
  · exact (aside_note _).bind fun _ => .pure _
  · refine .bind (.update fun _ _ => rfl) fun _ => .read_bind fun c q => ?_
    exact (aside_note _).bind fun _ => .pure _

variable [Presenter P]

/-- the one action that a presenter sees -/
theorem aside_announce (notice : Notice) :
    Aside (announce notice : Drive I L P Unit) (announce notice : Drive I L Q Unit) := fun _ _ => rfl

theorem aside_announceAll (ns : List Notice) :
    Aside (announceAll ns : Drive I L P Unit) (announceAll ns : Drive I L Q Unit) := by
  induction ns with
  | nil => exact .pure ()
  | cons n rest ih => exact (aside_announce n).bind fun _ => ih

theorem aside_goTo (target : Phase) : Aside (goTo target : Drive I L P Unit) (goTo target : Drive I L Q Unit) := by
  refine .read_bind fun c q => .ite (.pure ()) ?_
  exact (aside_note _).bind fun _ => .bind (.update fun _ _ => rfl) fun _ => aside_announce _

theorem aside_showFault (message : String) :
    Aside (showFault message : Drive I L P Unit) (showFault message : Drive I L Q Unit) := by
  refine .read_bind fun c q => .ite (.pure ()) ?_
  exact .bind (.update fun _ _ => rfl) fun _ => aside_announce _

theorem aside_halt (why : Halt) : Aside (halt why : Drive I L P Outcome) (halt why : Drive I L Q Outcome) := by
  refine aside_disarm.bind fun _ => .read_bind fun c q => ?_
  rcases why with _ | ⟨message⟩ | ⟨message⟩
  · exact (aside_note _).bind fun _ => (aside_goTo _).bind fun _ => .pure _
  · refine (aside_note _).bind fun _ => (aside_showFault _).bind fun _ => ?_
    exact (aside_goTo _).bind fun _ => .pure _
  · exact (aside_note _).bind fun _ => (aside_goTo _).bind fun _ => .pure _

theorem aside_follow (signal : Signal) :
    Aside (follow now signal : Drive I L P Unit) (follow now signal : Drive I L Q Unit) := by
  cases signal with
  | blocked => exact .bind (.update fun _ _ => rfl) fun _ => aside_goTo _
  | resume => exact (aside_arm now).bind fun _ => aside_goTo _

theorem aside_awaitInput (cell : Cell) :
    Aside (awaitInput now cell : Drive I L P Unit) (awaitInput now cell : Drive I L Q Unit) := by
  refine .read_bind fun c q => (aside_note _).bind fun _ => .bind (.update fun _ _ => rfl) fun _ => ?_
  exact (aside_follow now _).bind fun _ => aside_announce _

theorem aside_settleStep (events : StepBuffer) :
    Aside (settleStep now events : Drive I L P Outcome) (settleStep now events : Drive I L Q Outcome) := by
  unfold settleStep
  split
  · exact (aside_awaitInput now _).bind fun _ => .pure _
  · exact .pure _

/-! ### Operations -/

theorem aside_pause : Aside (pause : Drive I L P Unit) (pause : Drive I L Q Unit) := by
  refine .read_bind fun c q => ?_
  simp only [shownTo_phase]
  split
  · exact .bind (.update fun _ _ => rfl) fun _ => aside_goTo _
  · exact .pure ()
  · exact aside_ignore _

theorem aside_resume : Aside (resume now : Drive I L P Unit) (resume now : Drive I L Q Unit) :=
  .read_bind fun _ _ => .ite ((aside_arm now).bind fun _ => aside_goTo _) (aside_ignore _)

variable [Interpreter I]

theorem aside_executeStep :
    Aside (executeStep now : Drive I L P Outcome) (executeStep now : Drive I L Q Outcome) := by
  refine .read_bind fun c q => ?_
  simp only [shownTo_live]
  cases c.live with
  | none => exact aside_halt _
  | some inst =>
    refine (aside_called inst _).bind fun _ => (aside_note _).bind fun _ => .bind (.update fun _ _ => rfl) fun _ => ?_
    refine (Aside.demand _).bind fun ending => .bind (.update fun _ _ => rfl) fun _ => ?_
    refine (aside_announceAll _).bind fun _ => ?_
    cases ending.1 with
    | halt why => exact aside_halt why
    | proceed => exact aside_settleStep now _

theorem aside_step :
    Aside (step now : Drive I L P (Option Outcome)) (step now : Drive I L Q (Option Outcome)) :=
  .read_bind fun _ _ => .ite (.map _ (aside_executeStep now)) ((aside_ignore _).bind fun _ => .pure _)

theorem aside_tick :
    Aside (tick now : Drive I L P (Option Outcome)) (tick now : Drive I L Q (Option Outcome)) :=
  .read_bind fun _ _ => .ite (.map _ (aside_executeStep now)) ((aside_note _).bind fun _ => .pure _)

theorem aside_supplyInput (text : String) : Aside (supplyInput now text : Drive I L P (Except Error Unit))
    (supplyInput now text : Drive I L Q (Except Error Unit)) := by
  refine .read_bind fun c q => .ite ((aside_note _).bind fun _ => .pure _) ?_
  simp only [shownTo_live, shownTo_gate]
  cases c.live with
  | none => exact .pure _
  | some inst =>
    refine .bind (.update fun _ _ => rfl) fun _ => ?_
    cases (c.gate.supply text inst.machine).1 with
    | error e => exact .pure _
    | ok delivery =>
      refine (aside_called inst _).bind fun _ => (Aside.demand _).bind fun answer => .bind (.update fun _ _ => rfl) fun _ => ?_
      cases answer.1 with
      | proceed => exact (aside_follow now _).bind fun _ => .pure _
      | halt why => exact (aside_halt why).bind fun _ => .pure _

theorem aside_stop : Aside (stop : Drive I L P Unit) (stop : Drive I L Q Unit) := by
  refine .read_bind fun c q => ?_
  simp only [shownTo_phase, shownTo_live, shownTo_session]
  split
  · exact aside_ignore _
  · exact aside_ignore _
  · refine aside_disarm.bind fun _ => ?_
    cases c.live with
    | none => exact (aside_note _).bind fun _ => aside_goTo _
    | some inst =>
      refine .bind (.update fun _ _ => rfl) fun _ => (aside_resetInstance inst).bind fun _ => ?_
      exact (aside_note _).bind fun _ => aside_goTo _

theorem aside_begin (inst : Instance I) : Aside (begin inst : Drive I L P Unit) (begin inst : Drive I L Q Unit) := by
  refine .read_bind fun c q => .ite (aside_stop.bind fun _ => ?_) ?_
  -- the session starts in the same way whether another one was stopped for it or not
  all_goals
    refine aside_disarm.bind fun _ => (aside_resetInstance inst).bind fun fresh => ?_
    refine .read_bind fun c q => (aside_note _).bind fun _ => .bind (.update fun _ _ => rfl) fun _ => ?_
    exact aside_announce _

variable [Loader L I]

theorem aside_prepare : Aside (prepare : Drive I L P (Except Error (Instance I)))
    (prepare : Drive I L Q (Except Error (Instance I))) := by
  refine .read_bind fun c q => .bind (.update fun _ _ => rfl) fun _ => .bind (.write rfl) fun _ => ?_
  refine (aside_called _ _).bind fun _ => (Aside.demand _).bind fun answer => ?_
  cases answer with
  | accepted => exact .pure _
  | rejected message => exact (aside_note _).bind fun _ => (aside_announce _).bind fun _ => .pure _

theorem aside_run :
    Aside (run now : Drive I L P (Except Error Unit)) (run now : Drive I L Q (Except Error Unit)) := by
  refine aside_prepare.bind fun prepared => ?_
  cases prepared with
  | error e => exact .pure _
  | ok inst => exact (aside_begin inst).bind fun _ => (aside_arm now).bind fun _ => (aside_goTo _).bind fun _ => .pure _

theorem aside_firstStep :
    Aside (firstStep now : Drive I L P (Except Error Outcome)) (firstStep now : Drive I L Q (Except Error Outcome)) := by
  refine aside_prepare.bind fun prepared => ?_
  cases prepared with
  | error e => exact .pure _
  | ok inst =>
    refine (aside_begin inst).bind fun _ => (aside_goTo _).bind fun _ => (aside_executeStep now).bind fun outcome => ?_
    exact .read_bind fun c q => .ite ((aside_goTo _).bind fun _ => .pure _) (.pure _)

theorem aside_dispatch (intent : Intent) : Aside (dispatch now intent : Drive I L P (Except Error Unit))
    (dispatch now intent : Drive I L Q (Except Error Unit)) := by
  refine .read_bind fun c q => (aside_note _).bind fun _ => ?_
  cases intent with
  | load text => exact .bind (.update fun _ _ => rfl) fun _ => .pure _
  | setOptimize on => exact .bind (.update fun _ _ => rfl) fun _ => .pure _
  | run => exact aside_run now
  | firstStep =>
    refine (aside_firstStep now).bind fun result => ?_
    cases result with
    | error e => exact .pure _
    | ok outcome => exact .pure _
  | step => exact (aside_step now).bind fun _ => .pure _
  | pause => exact aside_pause.bind fun _ => .pure _
  | resume => exact (aside_resume now).bind fun _ => .pure _
  | stop => exact aside_stop.bind fun _ => .pure _
  | supplyInput text => exact aside_supplyInput now text
  | setDelay millis => exact aside_setDelay now millis

/-- **Every operation leaves the presenter aside.** -/
theorem aside_perform (op : Operation) :
    Aside (perform now op : Drive I L P Reply) (perform now op : Drive I L Q Reply) := by
  cases op with
  | load text => exact .bind (.update fun _ _ => rfl) fun _ => .pure _
  | setOptimize on => exact .bind (.update fun _ _ => rfl) fun _ => .pure _
  | run => exact .map _ (aside_run now)
  | firstStep => exact .map _ (aside_firstStep now)
  | step => exact .map _ (aside_step now)
  | pause => exact aside_pause.bind fun _ => .pure _
  | resume => exact (aside_resume now).bind fun _ => .pure _
  | stop => exact aside_stop.bind fun _ => .pure _
  | supplyInput text => exact .map _ (aside_supplyInput now text)
  | setDelay millis => exact .map _ (aside_setDelay now millis)
  | tick => exact .map _ (aside_tick now)
  | dispatch intent => exact .map _ (aside_dispatch now intent)

/-- and so does any number of them, one after the other -/
theorem aside_performAll (ops : List (Instant × Operation)) :
    Aside (performAll ops : Drive I L P (List Reply)) (performAll ops : Drive I L Q (List Reply)) := by
  induction ops with
  | nil => exact .pure _
  | cons op rest ih => exact (aside_perform op.1 op.2).bind fun reply => ih.bind fun replies => .pure _

end

end Controller

/-! ## Sessions -/

namespace Session

def notices (s : Session I L P) : List Notice := Controller.notices (s.record.map Timed.what)

variable [Presenter Q]

/-- the session with another presenter, which was `q` when the record began and heard all notices in it -/
def overheard (q : Q) (s : Session I L P) : Session I L Q :=
  { s with controller := s.controller.shownTo (s.notices.foldl Presenter.accept q) }

@[simp] theorem overheard_inbox (q : Q) (s : Session I L P) : (s.overheard q).inbox = s.inbox := rfl

theorem notices_write (now : Instant) (entries : List (Entry I)) (s : Session I L P) :
    (s.write now entries).notices = s.notices ++ Controller.notices entries := by
  have hwhat : (entries.map (Timed.mk now)).map Timed.what = entries := by
    rw [List.map_map]
    exact List.map_id _
  rw [notices, write, List.map_append, hwhat, Controller.notices_append]
  rfl

/-- the session after an action of its controller -/
theorem overheard_write (q : Q) (now : Instant) (s : Session I L P) (t : Turn (Controller I L P) (Entry I) α) :
    (({ s with controller := t.state } : Session I L P).write now t.journal).overheard q =
      ({ s.overheard q with controller := (t.overheard (s.notices.foldl Presenter.accept q)).state } : Session I L Q).write
        now t.journal := by
  have hnotices : (({ s with controller := t.state } : Session I L P).write now t.journal).notices =
      s.notices ++ Controller.notices t.journal := notices_write now t.journal _
  rw [overheard, hnotices, List.foldl_append]
  rfl

/-- log records are not for the presenter -/
theorem overheard_note (q : Q) (now : Instant) (note : Note) (s : Session I L P) :
    (s.write now [.noted note]).overheard q = (s.overheard q).write now [.noted note] := by
  have hnotices : (s.write now [.noted note]).notices = s.notices := by
    rw [notices_write]
    exact List.append_nil _
  rw [overheard, hnotices]
  rfl

theorem overheard_finish (q : Q) (now : Instant) (s : Session I L P) :
    (s.finish now).overheard q = (s.overheard q).finish now :=
  congrArg (close .finished) (overheard_note q now _ s)

variable [Interpreter I] [Loader L I] [Presenter P]

theorem overheard_serve (q : Q) (now : Instant) (command : Command) (s : Session I L P) :
    (s.serve now command).overheard q = (s.overheard q).serve now command := by
  have hturn := Controller.aside_dispatch now command.intent s.controller (s.notices.foldl Presenter.accept q)
  have hwrite := overheard_write q now s (Controller.dispatch now command.intent s.controller)
  unfold serve
  dsimp only
  rw [show (s.overheard q).controller = s.controller.shownTo (s.notices.foldl Presenter.accept q) from rfl, hturn]
  generalize Controller.dispatch now command.intent s.controller = t at hwrite ⊢
  rcases t with ⟨_ | result, d, j⟩
  · exact congrArg (close .crashed) hwrite
  · rcases result with e | _
    · have hnote := (overheard_note q now (.intentFailed command.intent e) _).trans
        (congrArg (write now [.noted (.intentFailed command.intent e)]) hwrite)
      exact congrArg (fun s : Session I L Q =>
        { s.publish with replies := s.publish.replies ++ [(command.ticket, Except.error e)] }) hnote
    · exact congrArg (fun s : Session I L Q =>
        { s.publish with replies := s.publish.replies ++ [(command.ticket, Except.ok ())] }) hwrite

omit [Loader L I] in
theorem overheard_serveTick (q : Q) (now : Instant) (timer : Timer) (s : Session I L P) :
    (s.serveTick now timer).overheard q = (s.overheard q).serveTick now timer := by
  have hturn := Controller.aside_tick now { s.controller with timer } (s.notices.foldl Presenter.accept q)
  have hwrite := overheard_write q now s (Controller.tick now { s.controller with timer })
  unfold serveTick
  dsimp only
  rw [show ({ (s.overheard q).controller with timer } : Controller I L Q) =
    ({ s.controller with timer } : Controller I L P).shownTo (s.notices.foldl Presenter.accept q) from rfl, hturn]
  generalize Controller.tick now { s.controller with timer } = t at hwrite ⊢
  rcases t with ⟨_ | outcome, d, j⟩
  · exact congrArg (close .crashed) hwrite
  · exact congrArg publish hwrite

/-- **A turn of the task leaves the presenter aside.** -/
theorem overheard_turn (q : Q) (now : Instant) (s : Session I L P) :
    (s.overheard q).turn now = ((s.turn now).1, (s.turn now).2.overheard q) := by
  -- the task takes the same branch, since it does not ask the presenter
  by_cases hs : s.status = .alive
  case neg =>
    rw [turn_over hs]
    exact turn_over (s := s.overheard q) hs now
  cases hc : s.cancelled with
  | true => rw [turn_cancelled hs hc, turn_cancelled (s := s.overheard q) hs hc, overheard_finish]
  | false =>
    cases hi : s.inbox with
    | cons command rest =>
      have hserve := overheard_serve q now command { s with inbox := rest }
      rw [turn_serve hs hc hi, turn_serve (s := s.overheard q) hs hc hi]
      exact congrArg (Prod.mk true) hserve.symm
    | nil =>
      cases ha : s.abandoned with
      | true => rw [turn_letGo hs hc hi ha, turn_letGo (s := s.overheard q) hs hc hi ha, overheard_finish]
      | false =>
        have hpoll : (s.overheard q).controller.timer.poll now = s.controller.timer.poll now := rfl
        rw [turn_poll hs hc hi ha, turn_poll (s := s.overheard q) hs hc hi ha, hpoll]
        rcases s.controller.timer.poll now with ⟨_ | _ | _ | _, timer⟩
        · rfl
        · rfl
        · exact congrArg (Prod.mk true) (overheard_serveTick q now timer s).symm
        · rfl

theorem overheard_turns (q : Q) (now : Instant) (fuel : Nat) (s : Session I L P) :
    (s.overheard q).turns now fuel = (s.turns now fuel).overheard q := by
  induction fuel generalizing s with
  | zero => rfl
  | succ fuel ih =>
    unfold turns
    rw [overheard_turn]
    rcases s.turn now with ⟨_ | _, t⟩
    · rfl
    · exact ih t

theorem overheard_rounds (q : Q) (now : Instant) (fuel : Nat) (s : Session I L P) :
    (s.overheard q).rounds now fuel = (s.rounds now fuel).overheard q := by
  induction fuel generalizing s with
  | zero => rfl
  | succ fuel ih =>
    have hwork : (s.overheard q).fillInbox.work now = (s.fillInbox.work now).overheard q :=
      overheard_turns q now _ s.fillInbox
    unfold rounds
    dsimp only
    rw [hwork]
    show (if (s.fillInbox.work now).waiting = [] then _ else _) = _
    split
    · rfl
    · exact ih _

theorem overheard_settle (q : Q) (now : Instant) (s : Session I L P) :
    (s.overheard q).settle now = (s.settle now).overheard q := overheard_rounds q now _ s

theorem overheard_runInstants {stop : Session I L P → Bool} {stop' : Session I L Q → Bool} (q : Q)
    (hstop : ∀ s, stop' (s.overheard q) = stop s) (limit : Instant) (fuel : Nat) (now : Instant) (s : Session I L P) :
    (s.overheard q).runInstants stop' limit fuel now =
      ((s.runInstants stop limit fuel now).1, (s.runInstants stop limit fuel now).2.overheard q) := by
  induction fuel generalizing now s with
  | zero => rfl
  | succ fuel ih =>
    have hwake : ((s.settle now).overheard q).wake? = (s.settle now).wake? := rfl
    unfold runInstants
    dsimp only
    rw [overheard_settle, hstop, hwake]
    split
    · rfl
    · split
      · split
        · exact ih _ _
        · rfl
      · rfl

theorem overheard_sleep (q : Q) (now limit : Instant) (s : Session I L P) :
    (s.overheard q).sleep now limit = (s.sleep now limit).overheard q :=
  congrArg Prod.snd (overheard_runInstants q (fun _ => rfl) limit _ now s)

theorem overheard_waitFor (q : Q) (target : Phase) (now limit : Instant) (s : Session I L P) :
    (s.overheard q).waitFor target now limit =
      ((s.waitFor target now limit).1, (s.waitFor target now limit).2.1, (s.waitFor target now limit).2.2.overheard q) := by
  have hran : (s.overheard q).runUntil (fun s => s.watch.phase = target || !s.isAlive) now limit = _ :=
    overheard_runInstants q (fun _ => rfl) limit _ now s
  unfold waitFor
  rw [hran]
  show (if s.watch.phase = target then _ else if s.isAlive = false then _ else _) = _
  split
  · rfl
  · split
    · rfl
    · rfl

theorem overheard_shutdown (q : Q) (now : Instant) (s : Session I L P) :
    (s.overheard q).shutdown now =
      ((s.shutdown now).1.map (Controller.shownTo ((s.shutdown now).2.notices.foldl Presenter.accept q)),
        (s.shutdown now).2.overheard q) := by
  have hsettle : ({ s.overheard q with cancelled := true } : Session I L Q).settle now = _ :=
    overheard_settle q now { s with cancelled := true }
  unfold shutdown
  dsimp only
  rw [hsettle]
  show (if (settle now { s with cancelled := true }).status = .crashed then _ else _, _) = _
  split
  · rfl
  · rfl

theorem overheard_abandon (q : Q) (now : Instant) (s : Session I L P) :
    (s.overheard q).abandon now = (s.abandon now).overheard q := overheard_settle q now { s with abandoned := true }

end Session

/-! ## Clients -/

namespace Client

variable [Presenter Q]

/-- the client of a session with another presenter, which was `q` when the record began and heard all notices in it -/
def overheard (q : Q) (a : Client I L P) : Client I L Q := { a with session := a.session.overheard q }

theorem overheard_postAll (q : Q) (requests : List Request) (s : Session I L P) :
    (s.overheard q).postAll requests = (s.postAll requests).overheard q := by
  rw [postAll_eq, postAll_eq]
  rfl

variable [Interpreter I] [Loader L I] [Presenter P]

theorem overheard_perform (q : Q) (a : Client I L P) (errand : Errand) :
    (a.overheard q).perform errand = (a.perform errand).overheard q := by
  cases errand with
  | send requests =>
    have hran : ((a.session.overheard q).postAll requests).settle a.clock =
        ((a.session.postAll requests).settle a.clock).overheard q := by
      rw [overheard_postAll, Session.overheard_settle]
    simp only [perform, overheard, hran]
    rfl
  | sleep length => simp only [perform, overheard, Session.overheard_sleep]
  | jump length => simp only [perform, overheard, Session.overheard_settle]
  | waitFor target length => simp only [perform, overheard, Session.overheard_waitFor]
  | look => rfl
  | shutdown => simp only [perform, overheard, Session.overheard_shutdown]
  | letGo => simp only [perform, overheard, Session.overheard_abandon]

theorem overheard_performAll (q : Q) (a : Client I L P) (errands : List Errand) :
    (a.overheard q).performAll errands = (a.performAll errands).overheard q := by
  induction errands generalizing a with
  | nil => rfl
  | cons errand rest ih =>
    calc
      (a.overheard q).performAll (errand :: rest)
        = ((a.perform errand).overheard q).performAll rest := by rw [← overheard_perform]; rfl
      _ = ((a.perform errand).performAll rest).overheard q := ih (a.perform errand)

end Client

/-! ## Presenters only look on -/

section

variable [Interpreter I] [Loader L I] [Presenter P]

/-- with `q` in place of its presenter the controller `c` does the same, and so does the client `a` -/
structure LooksOn [Presenter Q] (q : Q) (c : Controller I L P) (a : Client I L P) : Prop where
  /-- operations that are carried out directly come to the same replies, the same journal and the same controller, also when
  they break down -/
  direct : ∀ ops, (Controller.performAll ops : Drive I L Q (List Reply)) (c.shownTo q) =
    ((Controller.performAll ops : Drive I L P (List Reply)) c).overheard q
  /-- a session of the controller comes about in the same way -/
  spawned : Session.spawn? (c.shownTo q) = (Session.spawn? c).map (Session.overheard q)
  /-- clock, results, waits, glances and the whole session with its record are the same -/
  client : ∀ errands, (a.overheard q).performAll errands = (a.performAll errands).overheard q
  /-- and so is what a shutdown gives back -/
  returned : ∀ errands now, ((((a.overheard q).performAll errands).session).shutdown now).1 =
    ((a.performAll errands).session.shutdown now).1.map
      (Controller.shownTo (((a.performAll errands).session.shutdown now).2.notices.foldl Presenter.accept q))

theorem looksOn [Presenter Q] (q : Q) (c : Controller I L P) (a : Client I L P) : LooksOn q c a where
  direct ops := Controller.aside_performAll ops c q
  spawned := by
    unfold Session.spawn?
    dsimp only
    show (if max c.config.channelSize.toNat 1 ≤ Session.maxCapacity then _ else _) = _
    split
    · rfl
    · rfl
  client errands := Client.overheard_performAll q a errands
  returned errands now := by
    rw [Client.overheard_performAll]
    exact congrArg Prod.fst (Session.overheard_shutdown q now _)

/-- what the presenter of `c` was told in the end, when it was `q` to begin with, is related to what a recorder was told in the
same run: in a direct run, and in all that the client `a` does -/
structure Compares [Presenter Q] (R : Q → List Notice → Prop) (q : Q) (c : Controller I L P) (a : Client I L P) : Prop where
  direct : ∀ ops, R ((Controller.performAll ops : Drive I L Q (List Reply)) (c.shownTo q)).state.presenter
    ((Controller.performAll ops : Drive I L Recorder (List Reply)) (c.shownTo {})).state.presenter.notices
  client : ∀ errands, R ((a.overheard q).performAll errands).session.controller.presenter
    ((a.overheard ({} : Recorder)).performAll errands).session.controller.presenter.notices

theorem compares [Presenter Q] {R : Q → List Notice → Prop} {q : Q} (h : ∀ ns, R (ns.foldl Presenter.accept q) ns)
    (c : Controller I L P) (a : Client I L P) : Compares R q c a := by
  have hrecorder : ∀ ns : List Notice, (ns.foldl Presenter.accept ({} : Recorder)).notices = ns :=
    fun ns => Recorder.notices_told {} ns
  constructor
  · intro ops
    rw [(looksOn q c a).direct, (looksOn ({} : Recorder) c a).direct]
    show R _ (List.foldl Presenter.accept ({} : Recorder) _).notices
    rw [hrecorder]
    exact h _
  · intro errands
    rw [(looksOn q c a).client, (looksOn ({} : Recorder) c a).client]
    show R _ (List.foldl Presenter.accept ({} : Recorder) _).notices
    rw [hrecorder]
    exact h _

end

end StepControl

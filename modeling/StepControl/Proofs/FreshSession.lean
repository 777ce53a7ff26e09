/-
A fresh session does not depend on what was before it.

Two controllers are taken from any two histories: with or without a live session, an outstanding request, a fault. When they
have the same program, flag and delay, and their loaders build the same interpreters from now on (`SameSettings`), and a
start succeeds on both, nobody can tell them apart from then on who looks at replies, at what the controllers have come to,
at the calls on new interpreters, and at the announcements since the displays were cleared (`Indistinguishable`).

From the start to the end of all runs:
- `started_joins`: after the start they are alike in everything that is compared (`afresh`), with the interpreters counted
  from the ones that each of them had loaded before.
- `start_apply`, `start_opened`: what the start itself did before the new session began is the one thing that depends on the
  past: the end of the session before.
- `alike_performAll`: every further run of controllers that are alike gives the same replies, and leaves them alike.

Results:
- `performAll_afresh`: the start and whatever follows it cannot be told apart, breakdowns included.
- `performAll_afresh_waiting`: a run over a session that waits for input, and the same run on a new controller with another
  presenter.

Premises: both starts succeed, at the same instant, and what follows is at the same instants. The presenters on the two
sides may differ, and so may the configurations the controllers were made with. The interpreter may break down, after the
start.
-/
import StepControl.Proofs.Alike
import StepControl.Proofs.CallProtocol
import StepControl.Proofs.Histories

namespace StepControl

open StepControl.Action

/-- alike in everything that is compared at all -/
def afresh (n n' : Nat) : Likeness where
  phases p q := p = q
  timers t u := t = u
  instants now now' := now = now'
  tells := true
  first := n
  second := n'
  phases_still _ := rfl
  phases_apart h := Or.inl h
  timers_stop h := congrArg Timer.stop h
  timers_start h hnow := Timer.start_congr h hnow

namespace Controller

variable {I L P L' P' : Type} [Interpreter I] [Loader L I] [Loader L' I] [Presenter P] [Presenter P'] {n n' : Nat}
  {now : Instant}

/-! ## Operations on controllers that are alike -/

omit [Presenter P] [Presenter P'] in
/-- phases and instants are compared as they are -/
theorem afresh_plain : ((afresh n n').mirror : Mirror I L I L' (Entry I)).Plain where
  phases := Iff.rfl
  instants _ := rfl
  setDelay now delay h := congrArg (Timer.setDelay now delay) h

theorem alike_takeFirstStep :
    (afresh n n').Alike Eq (takeFirstStep now : Drive I L P (Except Error Outcome))
      (takeFirstStep now : Drive I L' P' (Except Error Outcome)) :=
  .of_mirrors ((mirrors_takeFirstStep afresh_plain).imp fun _ _ h => Reply.started.inj h.eq)

/-- **Runs of controllers that are alike give the same replies**, and leave them alike. -/
theorem alike_performAll (ops : List (Instant × Operation)) :
    (afresh n n').Alike Eq (performAll ops : Drive I L P (List Reply)) (performAll ops : Drive I L' P' (List Reply)) := by
  refine .of_mirrors ((mirrors_performAll afresh_plain ops).imp fun replies replies' h => ?_)
  induction h with
  | nil => rfl
  | cons first _ ih => rw [first.eq, ih]

/-! ## Numbers of interpreters -/

/-- the interpreter of the session is one of those that were loaded -/
def Numbered (c : Controller I L P) : Prop := ∀ inst, c.live = some inst → inst.serial ≤ c.loads

omit [Interpreter I] [Loader L I] [Presenter P] in
theorem Numbered.advanced {c : Controller I L P} {inst : Instance I} (h : Numbered c) (hl : c.live = some inst)
    (machine : I) : Numbered (c.advanced inst machine) := by
  rintro _ ⟨rfl⟩
  exact (h inst hl :)

omit [Presenter P] in
theorem Move.numbered {given : Option String} {c d : Controller I L P} {j : List (Entry I)} (h : Numbered c)
    (hm : Move now given c j d) : Numbered d := by
  cases hm with
  | refuse check => exact fun inst hl => Nat.le_succ_of_le (h inst hl)
  | start check cleared reset kind =>
    rintro inst ⟨rfl⟩
    cases cleared <;> exact Nat.le_refl _
  | proceed phase live next silent => exact h.advanced live _
  | ask phase live next asked => exact h.advanced live _
  | halt phase live next => exact h.advanced live _
  | supply phase hand pending live put => exact h.advanced live _
  | supplyHalt phase hand pending live put => exact h.advanced live _
  | stop busy cleared =>
    cases cleared with
    | empty vacant => exact h
    | stopped busy live reset => rintro inst ⟨⟩
  | rearm phase live reset => rintro inst ⟨⟩
  | _ => exact h

theorem Moves.numbered {given : Option String} {c d : Controller I L P} {j : List (Entry I)} (h : Numbered c)
    (hm : Moves now given c j d) : Numbered d := by
  induction hm with
  | refl => exact h
  | step first _ ih => exact ih (first.numbered h :)

theorem Reached.numbered {past : List Applied} {c : Controller I L P} (h : Reached past c) : Numbered c := by
  induction h with
  | new config loader presenter => rintro inst ⟨⟩
  | perform front now op returned ih =>
    exact (perform_yields front.steady.1 front.steady.2 op _ returned).1.numbered ih
  | poll front now ih => exact ih

/-! ## What is compared of a journal -/

/-- the calls on the interpreters that were loaded after the first `n`; they are counted from there on -/
def newCalls (n : Nat) (j : List (Entry I)) : List (Nat × Call) :=
  ((calls j).filter fun e => n < e.1).map fun e => (e.1 - n, e.2)

def noticesSinceReset (j : List (Entry I)) : List Notice := (notices j).dropWhile (· ≠ .reset)

omit [Interpreter I] in
@[simp] theorem newCalls_append (n : Nat) (j k : List (Entry I)) : newCalls n (j ++ k) = newCalls n j ++ newCalls n k := by
  rw [newCalls, calls_append, List.filter_append, List.map_append]
  rfl

omit [Interpreter I] in
theorem newCalls_of_seen {j k : List (Entry I)}
    (h : j.filterMap (Entry.seen true n) = k.filterMap (Entry.seen true n')) : newCalls n j = newCalls n' k := by
  have hseen : ∀ (m : Nat) (l : List (Entry I)), newCalls m l =
      ((l.filterMap (Entry.seen true m)).filterMap Entry.call?).filter fun call => 0 < call.1 := by
    intro m l
    rw [calls_seen, newCalls, List.filter_map]
    simp only [Function.comp_def, Nat.sub_pos_iff_lt]
  rw [hseen, hseen, h]

omit [Interpreter I] in
/-- what was announced before the displays were cleared is left out -/
theorem noticesSinceReset_append {j k : List (Entry I)} (hj : Notice.reset ∉ notices j) :
    noticesSinceReset (j ++ k) = noticesSinceReset k := by
  rw [noticesSinceReset, notices_append]
  refine List.dropWhile_append_of_pos fun notice hmem => ?_
  have hne : notice ≠ .reset := by
    rintro rfl
    exact hj hmem
  simpa using hne

omit [Interpreter I] in
theorem notices_of_seen {j k : List (Entry I)}
    (h : j.filterMap (Entry.seen true n) = k.filterMap (Entry.seen true n')) : notices j = notices k := by
  have hnotices := congrArg (List.filterMap Entry.notice?) h
  rw [notices_seen, notices_seen] at hnotices
  simpa using hnotices

/-! ## Starts -/

/-- the controllers have the same settings, and interpreters of the same kind to come -/
structure SameSettings (c : Controller I L P) (d : Controller I L' P') : Prop where
  program : c.program = d.program
  optimize : c.optimize = d.optimize
  delay : c.delay = d.delay
  loader : SameLoads c.loader d.loader

variable {c e : Controller I L P} {d e' : Controller I L' P'} {j j' : List (Entry I)} {machine machine' : I}
  {target : Phase}

omit [Presenter P] [Presenter P'] in
/-- sessions that start on controllers with the same settings start with the same interpreter -/
theorem Starts.machine_eq (h : SameSettings c d) (hs : Starts c j e machine) (hs' : Starts d j' e' machine') :
    c.built.machine = d.built.machine ∧ machine = machine' := by
  have hbuilt : c.built.machine = d.built.machine := by
    show (Loader.load c.loader c.program).1 = (Loader.load d.loader d.program).1
    rw [← h.program]
    exact h.loader.built c.program
  have hreset : Interpreter.reset c.built.machine = some machine := hs.reset
  rw [hbuilt, hs'.reset] at hreset
  exact ⟨hbuilt, (Option.some.inj hreset).symm⟩

omit [Loader L I] [Presenter P] in
/-- the end of a session leaves the settings as they are -/
theorem Cleared.kept (h : Cleared c j e) : e.loader = c.loader ∧ e.loads = c.loads ∧ e.program = c.program ∧
    e.optimize = c.optimize ∧ e.timer.delay = c.timer.delay ∧ e.buffer = c.buffer := by
  cases h <;> exact ⟨rfl, rfl, rfl, rfl, rfl, rfl⟩

theorem started_timer {t u : Timer} (h : t.delay = u.delay) (now : Instant) :
    (if target = .running then t.start now else t.stop) = if target = .running then u.start now else u.stop := by
  simp only [Timer.start, Timer.stop, h]

/-- **Sessions that start on controllers with the same settings are alike**, whatever was before. -/
theorem started_joins (h : SameSettings c d) (hc : Steady c) (hd : Steady d) (hs : Starts c j e machine)
    (hs' : Starts d j' e' machine') (k k' : List (Entry I)) :
    (afresh c.loads d.loads).Joins ((e.started now { c.built with machine } target).hear k)
      ((e'.started now { d.built with machine := machine' } target).hear k') := by
  obtain ⟨-, rfl⟩ := hs.machine_eq h hs'
  obtain ⟨hloader, hloads, hprogram, hoptimize, hdelay, hbuffer⟩ := hs.cleared.kept
  obtain ⟨hloader', hloads', hprogram', hoptimize', hdelay', hbuffer'⟩ := hs'.cleared.kept
  have hcount : e.loads + d.loads = e'.loads + c.loads := by
    rw [hloads, hloads']
    show c.loads + 1 + d.loads = d.loads + 1 + c.loads
    omega
  exact
    { phase := rfl
      timer := started_timer (hdelay.trans (h.delay.trans hdelay'.symm)) now
      loader := by
        show SameLoads e.loader e'.loader
        rw [hloader, hloader']
        show SameLoads (Loader.load c.loader c.program).2 (Loader.load d.loader d.program).2
        rw [← h.program]
        exact h.loader.rest c.program
      loads := hcount
      le := by
        show c.loads ≤ e.loads
        rw [hloads]
        exact Nat.le_succ _
      live := .some ⟨rfl, by show c.loads + 1 + d.loads = d.loads + 1 + c.loads; omega, Nat.le_succ _⟩
      program := (hprogram.trans h.program).trans hprogram'.symm
      optimize := (hoptimize.trans h.optimize).trans hoptimize'.symm
      buffer := ((hbuffer.trans hc.buffer).trans hd.buffer.symm).trans hbuffer'.symm
      gate := rfl
      errorShown := rfl }

/-- the operation that the start of a session leaves to do, once its phase was announced -/
def startRest (now : Instant) : Operation → Drive I L P Reply
  | .run => pure (.result (.ok ()))
  | _ => .started <$> takeFirstStep now

def startPhase : Operation → Phase
  | .run => .running
  | _ => .steppingOnce

theorem begin_apply (hs : Starts c j e machine) : (begin c.built : Drive I L P Unit) c.loaded =
    ⟨some (), (e.begun { c.built with machine }).hear (j ++ e.beginning c.built), j ++ e.beginning c.built⟩ :=
  eq_of_gives ((gives_begin hs.cleared hs.reset).2 ⟨rfl, rfl, rfl⟩)

/-- a start is one of the two operations, or a dispatch of one of them -/
theorem isStart_cases {op : Operation} (h : op.isStart = true) : (op = .run ∨ op = .firstStep) ∨
    ∃ intent, op = .dispatch intent ∧ (intent.operation = .run ∨ intent.operation = .firstStep) := by
  cases op with
  | run => exact Or.inl (Or.inl rfl)
  | firstStep => exact Or.inl (Or.inr rfl)
  | dispatch intent =>
    refine Or.inr ⟨intent, rfl, ?_⟩
    cases intent with
    | run => exact Or.inl rfl
    | firstStep => exact Or.inr rfl
    | _ => simp [Operation.isStart] at h
  | _ => simp [Operation.isStart] at h

/-- **A start whose program parses**: what was before is brought to its end, and the new session begins. -/
theorem start_apply (now : Instant) {op : Operation} (hop : op = .run ∨ op = .firstStep) (hs : Starts c j e machine) :
    ∃ s, s = (e.started now { c.built with machine } (startPhase op)).hear (c.startEntries e j (startPhase op)) ∧
      (perform now op : Drive I L P Reply) c =
        ⟨((startRest now op : Drive I L P Reply) s).value, ((startRest now op : Drive I L P Reply) s).state,
          c.startEntries e j (startPhase op) ++ ((startRest now op : Drive I L P Reply) s).journal⟩ := by
  refine ⟨_, rfl, ?_⟩
  rcases hop with rfl | rfl
  · refine eq_of_gives ?_
    rw [perform, gives_map, gives_run_accepted hs.check hs.cleared hs.reset]
    exact ⟨rfl, rfl, (List.append_nil _).symm⟩
  · have hrest : (startRest now .firstStep : Drive I L P Reply) = .started <$> takeFirstStep now := rfl
    have hstart : startPhase .firstStep = .steppingOnce := rfl
    rw [perform, map_apply, firstStep_eq, hrest, map_apply, hstart]
    simp only [bind_apply, prepare_accepted hs.check, begin_apply hs, hs.enters now, startEntries, greeting,
      List.append_assoc]

/-- the start of a session on two controllers with the same settings leads to the same rest -/
theorem alike_startRest (op : Operation) :
    (afresh n n').Alike Eq (startRest now op : Drive I L P Reply) (startRest now op : Drive I L' P' Reply) := by
  cases op with
  | run => exact .pure rfl
  | _ => exact alike_takeFirstStep.map fun _ _ => congrArg Reply.started

omit [Presenter P] in
/-- what a start does before the new session begins calls no new interpreter but for the check -/
theorem newCalls_front (hn : Numbered c) (hs : Starts c j e machine) :
    newCalls c.loads (c.loadEntries .accepted ++ j) = [(1, .check (some .accepted))] := by
  have hload : newCalls c.loads (c.loadEntries .accepted) = [(1, .check (some .accepted))] := by
    simp [newCalls, loadEntries, built]
  have hold : newCalls c.loads j = [] := by
    cases hs.cleared with
    | empty vacant => rfl
    | @stopped inst old busy live reset =>
      have hle : ¬ c.loads < inst.serial := Nat.not_lt.2 (hn inst live)
      simp [newCalls, teardown, hle]
  rw [newCalls_append, hload, hold, List.append_nil]

omit [Presenter P] in
/-- nor does it clear the displays -/
theorem notices_front (hs : Starts c j e machine) : Notice.reset ∉ notices (c.loadEntries .accepted ++ j) := by
  cases hs.cleared with
  | empty vacant => simp [loadEntries]
  | stopped busy live reset => simp [loadEntries, teardown, change]

omit [Presenter P] [Presenter P'] in
/-- new sessions are greeted in the same way -/
theorem greeting_seen (h : SameSettings c d) (hs : Starts c j e machine) (hs' : Starts d j' e' machine') :
    (e.greeting c.built target).filterMap (Entry.seen true c.loads) =
      (e'.greeting d.built target).filterMap (Entry.seen true d.loads) := by
  obtain ⟨hbuilt, -⟩ := hs.machine_eq h hs'
  have hone : c.built.serial - c.loads = d.built.serial - d.loads := by
    show c.loads + 1 - c.loads = d.loads + 1 - d.loads
    omega
  simp [greeting, beginning, change, List.filterMap_cons, hbuilt, hone]

/-- what a start came to that succeeded: its reply, and what it did from the beginning of the new session on. Before that
the check of the program was the only call on an interpreter that the controller had not loaded before, and the displays
were not cleared -/
structure Opened (t : Turn (Controller I L P) (Entry I) Reply) (n : Nat) (reply : Reply) (rest : List (Entry I)) : Prop where
  value : t.value = some reply
  journal : ∃ front, t.journal = front ++ rest ∧ newCalls n front = [(1, .check (some .accepted))] ∧
    Notice.reset ∉ notices front

omit [Presenter P] in
theorem started_opened (hn : Numbered c) (hs : Starts c j e machine) {op : Operation} {reply : Reply} {k : List (Entry I)}
    {t : Turn (Controller I L P) (Entry I) Reply} (hvalue : t.value = some reply)
    (hjournal : t.journal = c.startEntries e j (startPhase op) ++ k) :
    Opened t c.loads reply (e.greeting c.built (startPhase op) ++ k) where
  value := hvalue
  journal := by
    refine ⟨c.loadEntries .accepted ++ j, ?_, newCalls_front hn hs, notices_front hs⟩
    rw [hjournal, startEntries, List.append_assoc, List.append_assoc, List.append_assoc]

/-- a start that succeeds has begun a session -/
theorem Steady.starts_of_ok (h : Steady c) {op : Operation} (hop : op = .run ∨ op = .firstStep)
    (hok : ((perform now op : Drive I L P Reply) c).value.map Reply.toResult = some (.ok ())) :
    ∃ j e machine, Starts c j e machine := by
  rcases h.start_cases with ⟨message, hc⟩ | hstarts | hbroken
  · have hfailed : Gives (perform now op : Drive I L P Reply) c fun reply _ _ =>
        reply.toResult = .error (.badProgram message) := by
      rcases hop with rfl | rfl
      · rw [perform, gives_map, gives_run_rejected hc]
        rfl
      · rw [perform, gives_map, gives_firstStep_rejected hc]
        rfl
    obtain ⟨reply, hvalue, hresult⟩ := hfailed
    rw [hvalue, Option.map_some, hresult] at hok
    simp at hok
  · exact hstarts
  · simp [start_breaks hop hbroken] at hok

/-- **A start that succeeds on two controllers with the same settings comes to the same**, from the beginning of the new
session on, and leaves them alike. -/
theorem start_opened (h : SameSettings c d) (hc : Steady c) (hd : Steady d) (hn : Numbered c) (hn' : Numbered d)
    {op : Operation} (hop : op = .run ∨ op = .firstStep)
    (hok : ((perform now op : Drive I L P Reply) c).value.map Reply.toResult = some (.ok ()))
    (hok' : ((perform now op : Drive I L' P' Reply) d).value.map Reply.toResult = some (.ok ())) :
    ∃ reply k k', Opened ((perform now op : Drive I L P Reply) c) c.loads reply k ∧
      Opened ((perform now op : Drive I L' P' Reply) d) d.loads reply k' ∧
      k.filterMap (Entry.seen true c.loads) = k'.filterMap (Entry.seen true d.loads) ∧
      (afresh c.loads d.loads).Joins ((perform now op : Drive I L P Reply) c).state
        ((perform now op : Drive I L' P' Reply) d).state := by
  obtain ⟨j, e, machine, hs⟩ := hc.starts_of_ok hop hok
  obtain ⟨j', e', machine', hs'⟩ := hd.starts_of_ok hop hok'
  obtain ⟨s, hstarted, happly⟩ := start_apply now hop hs
  obtain ⟨s', hstarted', happly'⟩ := start_apply now hop hs'
  have hjoined : (afresh c.loads d.loads).Joins s s' := by
    rw [hstarted, hstarted']
    exact started_joins h hc hd hs hs' _ _
  obtain ⟨hjournal, hvalue⟩ := alike_startRest op s s' hjoined
  rw [happly] at hok ⊢
  rw [happly']
  cases hr : ((startRest now op : Drive I L P Reply) s).value with
  | none => simp [hr] at hok
  | some reply =>
    generalize hr' : ((startRest now op : Drive I L' P' Reply) s').value = reply' at hvalue
    rw [hr] at hvalue
    cases hvalue with
    | some hagree =>
      obtain ⟨rfl, hleft⟩ := hagree
      refine ⟨reply, _, _, started_opened hn hs rfl rfl, started_opened hn' hs' rfl rfl, ?_, hleft⟩
      rw [List.filterMap_append, List.filterMap_append, greeting_seen h hs hs']
      exact congrArg _ hjournal

omit [Loader L' I] [Presenter P'] in
/-- what a dispatch does before the operation of its intent is a log record -/
theorem Opened.dispatch {intent : Intent} {reply : Reply} {k : List (Entry I)}
    (h : Opened ((perform now intent.operation : Drive I L P Reply) c) n reply k) :
    Opened ((perform now (.dispatch intent) : Drive I L P Reply) c) n (.result reply.toResult) k where
  value := by
    rw [perform, map_apply, dispatch_apply, h.value]
    rfl
  journal := by
    obtain ⟨front, hjournal, hcalls, hnotices⟩ := h.journal
    refine ⟨.noted (.dispatching intent c.phase) :: front, ?_, hcalls, hnotices⟩
    rw [perform, map_apply, dispatch_apply, hjournal]
    rfl

omit [Loader L' I] [Presenter P'] in
theorem dispatch_end (now : Instant) (intent : Intent) (c : Controller I L P) :
    ((perform now (.dispatch intent) : Drive I L P Reply) c).value.map Reply.toResult =
        ((perform now intent.operation : Drive I L P Reply) c).value.map Reply.toResult ∧
      ((perform now (.dispatch intent) : Drive I L P Reply) c).state =
        ((perform now intent.operation : Drive I L P Reply) c).state := by
  rw [perform, map_apply, dispatch_apply]
  refine ⟨?_, rfl⟩
  cases ((perform now intent.operation : Drive I L P Reply) c).value <;> rfl

/-- two turns that nobody can tell apart who looks at replies, at what the controllers have come to, at the calls on the
interpreters after the first `n` and the first `n'`, and at the announcements from the clearing of the displays on -/
structure Indistinguishable (n n' : Nat) {α : Type} (t : Turn (Controller I L P) (Entry I) α)
    (t' : Turn (Controller I L' P') (Entry I) α) : Prop where
  value : t.value = t'.value
  state : t.value.isSome = true → (afresh n n').Joins t.state t'.state
  calls : newCalls n t.journal = newCalls n' t'.journal
  notices : noticesSinceReset t.journal = noticesSinceReset t'.journal

/-- a run that goes on from a start that succeeded -/
theorem opened_performAll {op : Operation} {reply : Reply} {k k' : List (Entry I)} (ops : List (Instant × Operation))
    (ho : Opened ((perform now op : Drive I L P Reply) c) n reply k)
    (ho' : Opened ((perform now op : Drive I L' P' Reply) d) n' reply k')
    (hk : k.filterMap (Entry.seen true n) = k'.filterMap (Entry.seen true n'))
    (hjoined : (afresh n n').Joins ((perform now op : Drive I L P Reply) c).state
      ((perform now op : Drive I L' P' Reply) d).state) :
    Indistinguishable n n' ((performAll ((now, op) :: ops) : Drive I L P (List Reply)) c)
      ((performAll ((now, op) :: ops) : Drive I L' P' (List Reply)) d) := by
  have halike : (afresh n n').Alike Eq (performAll ops : Drive I L P (List Reply))
      (performAll ops : Drive I L' P' (List Reply)) := alike_performAll ops
  obtain ⟨front, hfront, hcalls, hnotices⟩ := ho.journal
  obtain ⟨front', hfront', hcalls', hnotices'⟩ := ho'.journal
  have hvalue := halike.value_eq hjoined
  have hstate := halike.joins hjoined
  have hseen := (halike _ _ hjoined).journal
  rw [performAll_cons_apply ops ho.value, performAll_cons_apply ops ho'.value, hfront, hfront']
  generalize (performAll ops : Drive I L P (List Reply)) _ = t at hvalue hstate hseen ⊢
  generalize (performAll ops : Drive I L' P' (List Reply)) _ = t' at hvalue hstate hseen ⊢
  have hrest : (k ++ t.journal).filterMap (Entry.seen true n) = (k' ++ t'.journal).filterMap (Entry.seen true n') := by
    rw [List.filterMap_append, List.filterMap_append, hk]
    exact congrArg _ hseen
  refine ⟨congrArg (Option.map (reply :: ·)) hvalue, fun hreturned => hstate (by simpa using hreturned), ?_, ?_⟩
  · rw [List.append_assoc, List.append_assoc, newCalls_append, newCalls_append n', hcalls, hcalls', newCalls_of_seen hrest]
  · rw [List.append_assoc, List.append_assoc, noticesSinceReset_append hnotices, noticesSinceReset_append hnotices',
      noticesSinceReset, noticesSinceReset, notices_of_seen hrest]

/-- **A fresh session does not depend on what was before it.** On two controllers with any histories, the same settings and
the same interpreters to come, where a start succeeds on both at the same instant: that start and whatever follows it at the
same instants cannot be told apart, breakdowns included. -/
theorem performAll_afresh {past past' : List Applied} (hc : Reached past c) (hd : Reached past' d) (h : SameSettings c d)
    {op : Operation} (hop : op.isStart = true)
    (hok : ((perform now op : Drive I L P Reply) c).value.map Reply.toResult = some (.ok ()))
    (hok' : ((perform now op : Drive I L' P' Reply) d).value.map Reply.toResult = some (.ok ()))
    (ops : List (Instant × Operation)) :
    Indistinguishable c.loads d.loads ((performAll ((now, op) :: ops) : Drive I L P (List Reply)) c)
      ((performAll ((now, op) :: ops) : Drive I L' P' (List Reply)) d) := by
  rcases isStart_cases hop with hplain | ⟨intent, rfl, hplain⟩
  · obtain ⟨reply, k, k', ho, ho', hk, hjoined⟩ :=
      start_opened h hc.steady.1 hd.steady.1 hc.numbered hd.numbered hplain hok hok'
    exact opened_performAll ops ho ho' hk hjoined
  · obtain ⟨hresult, hstate⟩ := dispatch_end now intent c
    obtain ⟨hresult', hstate'⟩ := dispatch_end now intent d
    obtain ⟨reply, k, k', ho, ho', hk, hjoined⟩ :=
      start_opened h hc.steady.1 hd.steady.1 hc.numbered hd.numbered hplain (hresult ▸ hok) (hresult' ▸ hok')
    rw [← hstate, ← hstate'] at hjoined
    exact opened_performAll ops ho.dispatch ho'.dispatch hk hjoined

/-- a run over a session that waits for input, and the same run on a new controller with another presenter -/
theorem performAll_afresh_waiting :
    let ops : List (Instant × Operation) := [(100000000, .tick), (100000001, .stop)]
    ∃ (past past' : List Applied) (c : Controller Recital (List Recital) Unit)
        (d : Controller Recital (List Recital) Channel),
      Reached past c ∧ c.pending = some ⟨3⟩ ∧ Reached past' d ∧ d.phase = .idle ∧ SameSettings c d ∧
        ((perform 1 .run : Drive Recital (List Recital) Unit Reply) c).value.map Reply.toResult = some (.ok ()) ∧
        ((perform 1 .run : Drive Recital (List Recital) Channel Reply) d).value.map Reply.toResult = some (.ok ()) ∧
        Indistinguishable c.loads d.loads
          ((performAll ((1, .run) :: ops) : Drive Recital (List Recital) Unit (List Reply)) c)
          ((performAll ((1, .run) :: ops) : Drive Recital (List Recital) Channel (List Reply)) d) ∧
        newCalls c.loads ((performAll ((1, .run) :: ops) : Drive Recital (List Recital) Unit (List Reply)) c).journal =
          [(1, .check (some .accepted)), (1, .reset true), (1, .next false [.output 65] (some .proceed)),
            (1, .reset true)] := by
  intro ops
  have hreached := (Reached.new (I := Recital) (L := List Recital) (P := Unit) {}
    [{ steps := [([.requestInput ⟨3⟩], .proceed)] }, { steps := [([.output 65], .proceed)] }] ()).perform 0 .firstStep rfl
  have hstate : ((perform 0 .firstStep : Drive Recital (List Recital) Unit Reply) (ofConfig {}
      [{ steps := [([.requestInput ⟨3⟩], .proceed)] }, { steps := [([.output 65], .proceed)] }] ())).state =
      { config := {}, phase := .awaitingInput, loader := [{ steps := [([.output 65], .proceed)] }], loads := 1
        live := some ⟨1, {}⟩, presenter := (), optimize := false, timer := {}, gate := ⟨some ⟨3⟩⟩, session := some 1 } := rfl
  rw [hstate] at hreached
  have hd : Reached []
      (ofConfig {} [{ steps := [([.output 65], .proceed)] }] {} : Controller Recital (List Recital) Channel) :=
    .new _ _ _
  refine ⟨_, _, _, _, hreached, rfl, hd, rfl, ⟨rfl, rfl, rfl, fun _ => rfl⟩, rfl, rfl, ?_, by decide⟩
  exact performAll_afresh hreached hd ⟨rfl, rfl, rfl, fun _ => rfl⟩ rfl rfl rfl ops

end Controller

end StepControl

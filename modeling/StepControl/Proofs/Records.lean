/-
What the log tells of a run, record by record.

The log, the announcements and the calls on interpreters are three views of one journal, and each of them shows phases,
sessions and ends of programs in its own way. Here they are held against each other, for parts of a journal that can be put
one after the other:
- `Tells p s j q t`: in `j` the controller comes from phase `p` and session `s` to phase `q` and session `t`. The changes of
  phase on record are those announced, every record about a session is about the one that started last (`Correlated`), and
  the ends of programs on record are the halts that interpreters answered with.
- `Numbers s j t`: sessions are numbered one after the other, one for each program that got past its check, and no
  interpreter is brought to its origin but with a start or a stop on record.

What is read off a record is a table over `Note`: the session it is about, which is there just where the record has a field for it
(`Note.session?_isSome_iff`), the session it starts or stops, the change of phase, the end of a program with its message and
level.

Results:
- `Controller.Tells.append`, `Controller.Numbers.append`: parts that fit together make one.
- `Controller.tells_stepEntries`, `Controller.tells_halt`, `Controller.tells_teardown`, `Controller.tells_greeting`: what
  moves write.
- `Controller.Move.tells`, `Controller.Move.numbers`: every move is such a part, and so are moves one after the other.
- `Controller.Broken.tells`, `Controller.Broken.numbers`: so is what a controller does last where the interpreter breaks
  down, but that a program may have got past its check for nothing.

Premises: the controller is steady before the move. Of the interpreter nothing is assumed. What these parts come to for a
whole history is said in `AuditTrail`.
-/
import StepControl.Proofs.Account
import StepControl.Proofs.Breakdowns

namespace StepControl

/-! ## Reading records and calls -/

namespace Note

def session? : Note → Option (Option Nat)
  | .sessionStarted session _ => some (some session)
  | .sessionStopped session | .phaseChanged session .. | .completed session | .programFault session _
  | .internalFault session _ => some session
  | _ => none

/-- a record is about a session where it has a field for it -/
theorem session?_isSome_iff (n : Note) : n.session?.isSome = true ↔ "session" ∈ n.fields.map Prod.fst := by
  cases n <;> simp [session?, fields]

def started? : Note → Option Nat
  | .sessionStarted session _ => some session
  | _ => none

def stopped? : Note → Option (Option Nat)
  | .sessionStopped session => some session
  | _ => none

def transition? : Note → Option (Phase × Phase)
  | .phaseChanged _ source target => some (source, target)
  | _ => none

/-- the end of a program, as it is on record: the message, the level, and the fault if it was one -/
def ending? (n : Note) : Option (String × Level × Option Fault) :=
  match n with
  | .completed _ => some (n.message, n.level, none)
  | .programFault _ fault | .internalFault _ fault => some (n.message, n.level, some fault)
  | _ => none

/-- a record that is about no session tells nothing of one -/
theorem eq_none_of_session? {n : Note} (h : n.session? = none) :
    n.started? = none ∧ n.stopped? = none ∧ n.transition? = none ∧ n.ending? = none := by
  cases n <;> simp_all [session?, started?, stopped?, transition?, ending?]

theorem session?_of_isRemark {n : Note} (h : n.isRemark = true) : n.session? = none := by
  cases n <;> simp_all [isRemark, session?]

end Note

/-- a halt as it should be on record -/
def Halt.ending : Halt → String × Level × Option Fault
  | .completion => ("Program completed", .info, none)
  | .fault (.program message) => ("Program fault", .info, some (.program message))
  | .fault (.internal message) => ("Internal interpreter fault", .error, some (.internal message))

/-- the halt that an interpreter answers a step or an input with -/
def Call.halt? : Call → Option Halt
  | .next _ _ (some (.halt why)) | .put _ _ (some (.halt why)) => some why
  | _ => none

def Call.isAccepted : Call → Bool
  | .check (some .accepted) => true
  | _ => false

/-- a reset that did not break down -/
def Call.isAnsweredReset : Call → Bool
  | .reset done => done
  | _ => false

/-- the changes from each phase to the next -/
def Phase.changes (p : Phase) (ps : List Phase) : List (Phase × Phase) := (p :: ps).zip ps

theorem Phase.changes_append (p : Phase) (ps qs : List Phase) :
    p.changes (ps ++ qs) = p.changes ps ++ (ps.getLast?.getD p).changes qs := by
  induction ps generalizing p with
  | nil => rfl
  | cons q ps ih =>
    have hlast : (q :: ps).getLast?.getD p = ps.getLast?.getD q := by rw [List.getLast?_cons, Option.getD_some]
    have hrest := ih q
    rw [hlast]
    simp only [Phase.changes, List.cons_append, List.zip_cons_cons] at hrest ⊢
    rw [hrest]

theorem announced_append (ns ms : List Notice) : announced (ns ++ ms) = announced ns ++ announced ms :=
  List.filterMap_append

theorem lastPhase_append (p : Phase) (ns ms : List Notice) : lastPhase p (ns ++ ms) = lastPhase (lastPhase p ns) ms := by
  simp only [lastPhase, announced_append, List.getLast?_append]
  cases (announced ms).getLast? <;> simp

/-! ## Sessions of records -/

def latestStart (s : Option Nat) (notes : List Note) : Option Nat := (notes.filterMap Note.started?).getLast?.or s

@[simp] theorem latestStart_nil (s : Option Nat) : latestStart s [] = s := rfl

@[simp] theorem latestStart_cons (s : Option Nat) (note : Note) (notes : List Note) :
    latestStart s (note :: notes) = latestStart (note.started?.or s) notes := by
  unfold latestStart
  cases hn : note.started? with
  | none => rw [List.filterMap_cons_none hn, Option.none_or]
  | some n =>
    rw [List.filterMap_cons_some hn, List.getLast?_cons, Option.some_or]
    cases (notes.filterMap Note.started?).getLast? <;> rfl

theorem latestStart_append (s : Option Nat) (notes more : List Note) :
    latestStart s (notes ++ more) = latestStart (latestStart s notes) more := by
  induction notes generalizing s with
  | nil => rfl
  | cons note notes ih => rw [List.cons_append, latestStart_cons, latestStart_cons, ih]

/-- every record about a session is about the one that started last, and there is one; `s` started before -/
def Correlated : Option Nat → List Note → Prop
  | _, [] => True
  | s, note :: notes =>
    (∀ field ∈ note.session?, field.isSome = true ∧ field = note.started?.or s) ∧ Correlated (note.started?.or s) notes

@[simp] theorem correlated_nil (s : Option Nat) : Correlated s [] := trivial

@[simp] theorem correlated_cons (s : Option Nat) (note : Note) (notes : List Note) : Correlated s (note :: notes) ↔
    (∀ field ∈ note.session?, field.isSome = true ∧ field = note.started?.or s) ∧
      Correlated (note.started?.or s) notes := Iff.rfl

theorem correlated_append {s : Option Nat} {notes more : List Note} :
    Correlated s (notes ++ more) ↔ Correlated s notes ∧ Correlated (latestStart s notes) more := by
  induction notes generalizing s with
  | nil => simp
  | cons note notes ih => rw [List.cons_append, correlated_cons, correlated_cons, ih, latestStart_cons, and_assoc]

theorem Correlated.field_eq {s : Option Nat} {notes front back : List Note} {note : Note} {field : Option Nat}
    (h : Correlated s notes) (hnotes : notes = front ++ note :: back) (hfield : note.session? = some field) :
    field.isSome = true ∧ field = latestStart s (front ++ [note]) := by
  rw [hnotes, correlated_append, correlated_cons] at h
  obtain ⟨-, hhere, -⟩ := h
  rw [latestStart_append, latestStart_cons, latestStart_nil]
  exact hhere field hfield

namespace Controller

variable {I L P : Type} {c d : Controller I L P} {j k : List (Entry I)} {inst : Instance I} {p q r : Phase}
  {s t u : Option Nat}

/-! ## The records of a journal -/

def records (j : List (Entry I)) : List Note := j.filterMap Entry.note?

@[simp] theorem records_nil : records ([] : List (Entry I)) = [] := rfl

@[simp] theorem records_append (j k : List (Entry I)) : records (j ++ k) = records j ++ records k := List.filterMap_append

@[simp] theorem records_cons_loaded (serial : Nat) (text : String) (j : List (Entry I)) :
    records (.loaded serial text :: j) = records j := rfl

@[simp] theorem records_cons_called (serial : Nat) (before : I) (call : Call) (j : List (Entry I)) :
    records (.called serial before call :: j) = records j := rfl

@[simp] theorem records_cons_shown (n : Notice) (j : List (Entry I)) : records (.shown n :: j) = records j := rfl

@[simp] theorem records_cons_noted (n : Note) (j : List (Entry I)) : records (.noted n :: j) = n :: records j := rfl

@[simp] theorem records_noted (notes : List Note) : records (I := I) (notes.map .noted) = notes := by
  simp [records, List.filterMap_map, Entry.note?, Function.comp_def]

@[simp] theorem records_shown (ns : List Notice) : records (I := I) (ns.map .shown) = [] := by
  simp [records, List.filterMap_map, Entry.note?, Function.comp_def]

@[simp] theorem records_change (target : Phase) :
    records (c.change target) = [.phaseChanged c.session c.phase target] := rfl

@[simp] theorem records_stepEntries (hooks : List Hook) (verdict : Verdict) :
    records (c.stepEntries inst hooks verdict) = (StepBuffer.late false hooks).map .requestTooLate := by
  simp only [stepEntries, ← List.map_map, records_cons_called, records_append, records_noted, records_shown,
    List.append_nil]

/-- news of a step announce no phase -/
theorem announced_progress (hooks : List Hook) : announced (hooks.filterMap progress?) = [] := by
  rw [announced, List.filterMap_filterMap, List.filterMap_eq_nil_iff]
  intro hook _
  cases hook <;> rfl

def endings (j : List (Entry I)) : List (String × Level × Option Fault) := (records j).filterMap Note.ending?

def transitions (j : List (Entry I)) : List (Phase × Phase) := (records j).filterMap Note.transition?

def starts (j : List (Entry I)) : List Nat := (records j).filterMap Note.started?

def stops (j : List (Entry I)) : List (Option Nat) := (records j).filterMap Note.stopped?

theorem filterMap_records_append {α : Type} (f : Note → Option α) (j k : List (Entry I)) :
    (records (j ++ k)).filterMap f = (records j).filterMap f ++ (records k).filterMap f := by
  rw [records_append, List.filterMap_append]

theorem endings_append (j k : List (Entry I)) : endings (j ++ k) = endings j ++ endings k :=
  filterMap_records_append Note.ending? j k

theorem transitions_append (j k : List (Entry I)) : transitions (j ++ k) = transitions j ++ transitions k :=
  filterMap_records_append Note.transition? j k

theorem starts_append (j k : List (Entry I)) : starts (j ++ k) = starts j ++ starts k :=
  filterMap_records_append Note.started? j k

theorem stops_append (j k : List (Entry I)) : stops (j ++ k) = stops j ++ stops k :=
  filterMap_records_append Note.stopped? j k

def halts (j : List (Entry I)) : List Halt := (calls j).filterMap fun call => call.2.halt?

def accepted (j : List (Entry I)) : Nat := (calls j).countP fun call => call.2.isAccepted

def resets (j : List (Entry I)) : Nat := (calls j).countP fun call => call.2.isAnsweredReset

theorem halts_append (j k : List (Entry I)) : halts (j ++ k) = halts j ++ halts k := by
  unfold halts
  rw [calls_append, List.filterMap_append]

theorem accepted_append (j k : List (Entry I)) : accepted (j ++ k) = accepted j + accepted k := by
  unfold accepted
  rw [calls_append, List.countP_append]

theorem resets_append (j k : List (Entry I)) : resets (j ++ k) = resets j + resets k := by
  unfold resets
  rw [calls_append, List.countP_append]

/-! ## What a part of a journal tells -/

/-- the records of `j` tell how a controller came from phase `p` and session `s` to phase `q` and session `t`, and they tell
what was announced and what interpreters answered -/
structure Tells (p : Phase) (s : Option Nat) (j : List (Entry I)) (q : Phase) (t : Option Nat) : Prop where
  transitions : transitions j = p.changes (announced (notices j))
  phase : lastPhase p (notices j) = q
  correlated : Correlated s (records j)
  session : latestStart s (records j) = t
  endings : endings j = (halts j).map Halt.ending

/-- parts one after the other -/
theorem Tells.append (h : Tells p s j q t) (h' : Tells q t k r u) : Tells p s (j ++ k) r u where
  transitions := by
    have hlast : (announced (notices j)).getLast?.getD p = q := h.phase
    rw [notices_append, announced_append, Phase.changes_append, hlast, ← h.transitions, ← h'.transitions,
      transitions_append]
  phase := by rw [notices_append, lastPhase_append, h.phase, h'.phase]
  correlated := by
    rw [records_append, correlated_append, h.session]
    exact ⟨h.correlated, h'.correlated⟩
  session := by rw [records_append, latestStart_append, h.session, h'.session]
  endings := by rw [endings_append, halts_append, List.map_append, h.endings, h'.endings]

/-- records that are about no session start none -/
theorem latestStart_of_silent {notes : List Note} (h : ∀ n ∈ notes, n.session? = none) (s : Option Nat) :
    latestStart s notes = s := by
  rw [latestStart, List.filterMap_eq_nil_iff.2 fun n hn => (Note.eq_none_of_session? (h n hn)).1]
  rfl

theorem correlated_of_silent {notes : List Note} (h : ∀ n ∈ notes, n.session? = none) (s : Option Nat) :
    Correlated s notes := by
  induction notes with
  | nil => trivial
  | cons n notes ih =>
    obtain ⟨hn, hnotes⟩ := List.forall_mem_cons.1 h
    rw [correlated_cons, hn, (Note.eq_none_of_session? hn).1]
    exact ⟨nofun, ih hnotes⟩

/-- what announces no phase, is about no session and halts no program tells nothing -/
theorem tells_silent (hnotices : announced (notices j) = []) (hrecords : ∀ n ∈ records j, n.session? = none)
    (hcalls : halts j = []) : Tells p s j p s where
  transitions := by
    rw [hnotices, Controller.transitions,
      List.filterMap_eq_nil_iff.2 fun n hn => (Note.eq_none_of_session? (hrecords n hn)).2.2.1]
    rfl
  phase := by
    rw [lastPhase, hnotices]
    rfl
  correlated := correlated_of_silent hrecords s
  session := latestStart_of_silent hrecords s
  endings := by
    rw [hcalls, Controller.endings,
      List.filterMap_eq_nil_iff.2 fun n hn => (Note.eq_none_of_session? (hrecords n hn)).2.2.2]
    rfl

/-- so does what has nothing on record -/
theorem tells_unrecorded (hnotices : announced (notices j) = []) (hrecords : records j = []) (hcalls : halts j = []) :
    Tells p s j p s := by
  refine tells_silent hnotices ?_ hcalls
  rw [hrecords]
  exact List.forall_mem_nil _

theorem tells_nil : Tells p s ([] : List (Entry I)) p s := tells_unrecorded rfl rfl rfl

/-! ## What moves tell -/

/-- a change of phase within a session -/
theorem tells_change (hs : c.session.isSome = true) (target : Phase) :
    Tells c.phase c.session (c.change target) target c.session where
  transitions := rfl
  phase := rfl
  correlated := by simp [Note.session?, Note.started?, hs]
  session := rfl
  endings := rfl

/-- what a farewell has on record -/
theorem farewell_records (hs : c.session.isSome = true) (why : Halt) :
    transitions (c.farewell why) = [(c.phase, why.phase)] ∧ announced (notices (c.farewell why)) = [why.phase] ∧
      Correlated c.session (records (c.farewell why)) ∧ latestStart c.session (records (c.farewell why)) = c.session ∧
      endings (c.farewell why) = [why.ending] ∧ halts (c.farewell why) = [] := by
  rcases why with _ | ⟨message⟩ | ⟨message⟩
  all_goals exact ⟨rfl, rfl, by simp [farewell, Note.session?, Note.started?, hs], rfl, rfl, rfl⟩

/-- a halt: what an interpreter answered, and the farewell -/
theorem tells_halt (hs : c.session.isSome = true) {why : Halt} (hnotices : announced (notices j) = [])
    (hrecords : ∀ n ∈ records j, n.session? = none) (hcalls : halts j = [why]) :
    Tells c.phase c.session (j ++ c.farewell why) why.phase c.session := by
  obtain ⟨htransitions, hannounced, hcorrelated, hsession, hendings, hhalts⟩ := farewell_records hs why
  have hquiet := fun n hn => Note.eq_none_of_session? (hrecords n hn)
  have hchanges : transitions j = [] := List.filterMap_eq_nil_iff.2 fun n hn => (hquiet n hn).2.2.1
  have hnone : endings j = [] := List.filterMap_eq_nil_iff.2 fun n hn => (hquiet n hn).2.2.2
  have hsame := latestStart_of_silent hrecords c.session
  refine ⟨?_, ?_, ?_, ?_, ?_⟩
  · rw [notices_append, announced_append, hnotices, hannounced, transitions_append, hchanges, htransitions]
    rfl
  · rw [lastPhase, notices_append, announced_append, hnotices, hannounced]
    rfl
  · rw [records_append, correlated_append, hsame]
    exact ⟨correlated_of_silent hrecords _, hcorrelated⟩
  · rw [records_append, latestStart_append, hsame, hsession]
  · rw [endings_append, hnone, hendings, halts_append, hcalls, hhalts]
    rfl

/-- an end of a session that resets the interpreter -/
theorem tells_teardown (hs : c.session.isSome = true) (inst : Instance I) (target : Phase) :
    Tells c.phase c.session (c.teardown inst target) target c.session where
  transitions := rfl
  phase := rfl
  correlated := by simp [teardown, Note.session?, Note.started?, hs]
  session := rfl
  endings := rfl

/-- the start of a session in place of none -/
theorem tells_greeting (inst : Instance I) (target : Phase) :
    Tells c.phase c.session (c.greeting inst target) target (some c.nextSession) where
  transitions := rfl
  phase := rfl
  correlated := by simp [greeting, beginning, begun, Note.session?, Note.started?]
  session := rfl
  endings := rfl

/-- a step, up to what it leads to -/
theorem stepEntries_silent (inst : Instance I) (hooks : List Hook) (verdict : Verdict) :
    announced (notices (c.stepEntries inst hooks verdict)) = [] ∧
      ∀ n ∈ records (c.stepEntries inst hooks verdict), n.session? = none := by
  refine ⟨by rw [notices_stepEntries, announced_progress], ?_⟩
  rw [records_stepEntries, List.forall_mem_map]
  exact fun _ _ => rfl

theorem tells_stepEntries (hooks : List Hook) : Tells p s (c.stepEntries inst hooks .proceed) p s := by
  obtain ⟨hnotices, hrecords⟩ := stepEntries_silent (c := c) inst hooks .proceed
  refine tells_silent hnotices hrecords ?_
  rw [halts, calls_stepEntries]
  rfl

/-- a session that is not over has a number -/
theorem Steady.session_isSome (h : Steady c) (hp : c.phase ≠ .idle) : c.session.isSome = true := by
  rw [Option.isSome_iff_ne_none]
  exact mt h.session hp

variable [Interpreter I]

theorem Cleared.tells (h : Steady c) (hc : Cleared c j d) : Tells c.phase c.session j d.phase d.session := by
  cases hc with
  | empty vacant => exact tells_nil
  | stopped busy live reset =>
    exact tells_teardown (h.session_isSome (Phase.ne_idle_of_hasSession busy)) _ _

variable [Loader L I] {now : Instant} {given : Option String}

omit [Interpreter I] in
theorem tells_loadEntries (answer : Check) : Tells p s (c.loadEntries answer) p s := tells_unrecorded rfl rfl rfl

/-- **Every move tells** of the phase and the session that it leads to. -/
theorem Move.tells (h : Steady c) (hm : Move now given c j d) : Tells c.phase c.session j d.phase d.session := by
  cases hm with
  | remark note isRemark =>
    exact tells_silent rfl (List.forall_mem_singleton.2 (Note.session?_of_isRemark isRemark)) rfl
  | load text => exact tells_nil
  | setOptimize on => exact tells_nil
  | setDelay delay => exact tells_silent rfl (by simp [Note.session?]) rfl
  | refuse check => exact tells_silent rfl (by simp [refusal, loadEntries, Note.session?]) rfl
  | start check cleared reset kind =>
    exact (tells_loadEntries .accepted).append ((cleared.tells h.loaded).append (tells_greeting _ _))
  | proceed phase live next silent => exact tells_stepEntries _
  | ask phase live next asked =>
    have hs := h.session_isSome (Phase.ne_idle_of_hasSession (Phase.hasSession_of_canStep phase))
    exact (tells_stepEntries _).append ((tells_change hs _).append (tells_unrecorded rfl rfl rfl))
  | halt phase live next =>
    have hs := h.session_isSome (Phase.ne_idle_of_hasSession (Phase.hasSession_of_canStep phase))
    obtain ⟨hnotices, hrecords⟩ := stepEntries_silent (c := c) _ _ _
    refine tells_halt hs hnotices hrecords ?_
    rw [halts, calls_stepEntries]
    rfl
  | supply phase hand pending live put =>
    have hs := h.session_isSome (by rw [phase]; decide)
    exact (tells_unrecorded (j := [.called _ _ (.put _ _ (some .proceed))]) rfl rfl rfl).append (tells_change hs _)
  | supplyHalt phase hand pending live put =>
    have hs := h.session_isSome (by rw [phase]; decide)
    exact tells_halt (j := [.called _ _ (.put _ _ (some (.halt _)))]) hs rfl (List.forall_mem_nil _) rfl
  | pause phase =>
    have hs := h.session_isSome (by obtain hp | hp := phase <;> rw [hp] <;> decide)
    exact tells_change hs _
  | resume phase => exact tells_change (h.session_isSome (by rw [phase]; decide)) _
  | stop busy cleared => exact cleared.tells h
  | rearm phase live reset => exact tells_teardown (h.session_isSome (by rw [phase]; decide)) _ _

theorem Moves.tells [Presenter P] (h : Steady c) (hm : Moves now given c j d) :
    Tells c.phase c.session j d.phase d.session := by
  induction hm with
  | refl => exact tells_nil
  | step first _ ih => exact (first.tells h).append (ih ((first.steady h).hear _))

omit [Interpreter I] [Loader L I] in
/-- a step that breaks down -/
theorem brokenStep_silent (inst : Instance I) (optimize : Bool) (hooks : List Hook) :
    let entries := .called inst.serial inst.machine (.next optimize hooks none) ::
      (StepBuffer.late false hooks).map (.noted ∘ .requestTooLate)
    announced (notices entries) = [] ∧ (∀ n ∈ records entries, n.session? = none) ∧
      calls entries = [(inst.serial, .next optimize hooks none)] := by
  intro entries
  have hentries : entries = .called inst.serial inst.machine (.next optimize hooks none) ::
      ((StepBuffer.late false hooks).map .requestTooLate).map .noted := by rw [List.map_map]
  rw [hentries, notices_cons_called, notices_noted, records_cons_called, records_noted, calls_cons_called, calls_noted,
    List.forall_mem_map]
  exact ⟨rfl, fun _ _ => rfl, rfl⟩

omit [Interpreter I] [Loader L I] in
theorem tells_brokenReset (inst : Instance I) :
    Tells p s ([.called inst.serial inst.machine (.reset false)] : List (Entry I)) p s := tells_unrecorded rfl rfl rfl

/-- what is last before a breakdown tells as much: the session that was live may have ended in it -/
theorem Broken.tells (h : Steady c) (hb : Broken given c j) : ∃ q t, Tells c.phase c.session j q t := by
  cases hb with
  | check check => exact ⟨_, _, tells_unrecorded rfl rfl rfl⟩
  | next phase live next =>
    obtain ⟨hnotices, hrecords, hcalls⟩ := brokenStep_silent _ _ _
    refine ⟨_, _, tells_silent hnotices hrecords ?_⟩
    rw [halts, hcalls]
    rfl
  | put phase hand pending live put => exact ⟨_, _, tells_unrecorded rfl rfl rfl⟩
  | stop phase live reset => exact ⟨_, _, tells_brokenReset _⟩
  | stopOld check phase live reset => exact ⟨_, _, (tells_loadEntries .accepted).append (tells_brokenReset _)⟩
  | startNew check cleared reset =>
    exact ⟨_, _, (tells_loadEntries .accepted).append ((cleared.tells h.loaded).append (tells_brokenReset _))⟩

theorem Breakdown.tells [Presenter P] (h : Steady c) (hb : Breakdown now given c j) :
    ∃ q t, Tells c.phase c.session j q t := by
  obtain ⟨front, d, last, hfront, hlast, rfl⟩ := hb
  obtain ⟨q, t, htells⟩ := hlast.tells (hfront.steady h)
  exact ⟨q, t, (hfront.tells h).append htells⟩

/-! ## The numbers of sessions -/

/-- records that tell neither of a start nor of a stop -/
def Uneventful (j : List (Entry I)) : Prop := starts j = [] ∧ stops j = []

omit [Interpreter I] [Loader L I] in
theorem Uneventful.append (h : Uneventful j) (h' : Uneventful k) : Uneventful (j ++ k) := by
  unfold Uneventful
  rw [starts_append, stops_append, h.1, h.2, h'.1, h'.2]
  exact ⟨rfl, rfl⟩

omit [Interpreter I] [Loader L I] in
theorem uneventful_of_silent (h : ∀ n ∈ records j, n.session? = none) : Uneventful j :=
  ⟨List.filterMap_eq_nil_iff.2 fun n hn => (Note.eq_none_of_session? (h n hn)).1,
    List.filterMap_eq_nil_iff.2 fun n hn => (Note.eq_none_of_session? (h n hn)).2.1⟩

omit [Interpreter I] [Loader L I] in
theorem uneventful_noted {note : Note} (h : note.session? = none) : Uneventful ([.noted note] : List (Entry I)) :=
  uneventful_of_silent (List.forall_mem_singleton.2 h)

omit [Interpreter I] [Loader L I] in
theorem uneventful_farewell (why : Halt) : Uneventful (c.farewell why) := by
  rcases why with _ | ⟨message⟩ | ⟨message⟩ <;> exact ⟨rfl, rfl⟩

omit [Interpreter I] [Loader L I] in
theorem uneventful_stepEntries (hooks : List Hook) (verdict : Verdict) : Uneventful (c.stepEntries inst hooks verdict) :=
  uneventful_of_silent (stepEntries_silent inst hooks verdict).2

/-- sessions are numbered on from `s`, one for each program that got past its check; every start and every stop on record
brought an interpreter to its origin -/
structure Numbers (s : Option Nat) (j : List (Entry I)) (t : Option Nat) : Prop where
  starts : starts j = List.range' (s.getD 0 + 1) (accepted j)
  count : t.getD 0 = s.getD 0 + accepted j
  resets : resets j = (Controller.starts j).length + (stops j).length

omit [Interpreter I] [Loader L I] in
theorem Numbers.append (h : Numbers s j t) (h' : Numbers t k u) : Numbers s (j ++ k) u where
  starts := by
    rw [starts_append, accepted_append, h.starts, h'.starts, h.count, ← List.range'_append_1]
    congr 2
    omega
  count := by
    have hj := h.count
    have hk := h'.count
    rw [accepted_append]
    omega
  resets := by
    rw [resets_append, starts_append, stops_append, List.length_append, List.length_append, h.resets, h'.resets]
    omega

omit [Interpreter I] [Loader L I] in
/-- where nothing starts or stops, nothing is accepted and nothing is reset, there is nothing to number -/
theorem Uneventful.numbers (h : Uneventful j) (haccepted : accepted j = 0) (hresets : Controller.resets j = 0) :
    Numbers s j s := by
  refine ⟨?_, ?_, ?_⟩
  · rw [h.1, haccepted]
    rfl
  · rw [haccepted]
    rfl
  · rw [h.1, h.2, hresets]
    rfl

omit [Interpreter I] [Loader L I] in
theorem numbers_farewell (why : Halt) : Numbers s (c.farewell why) s := by
  refine (uneventful_farewell why).numbers ?_ ?_
  · rw [accepted, calls_farewell]
    rfl
  · rw [resets, calls_farewell]
    rfl

omit [Interpreter I] [Loader L I] in
theorem numbers_stepEntries (hooks : List Hook) (verdict : Verdict) :
    Numbers s (c.stepEntries inst hooks verdict) s := by
  refine (uneventful_stepEntries hooks verdict).numbers ?_ ?_
  · rw [accepted, calls_stepEntries]
    rfl
  · rw [resets, calls_stepEntries]
    rfl

omit [Loader L I] in
theorem Cleared.numbers (hc : Cleared c j d) : Numbers c.session j d.session := by
  cases hc with
  | empty vacant => exact ⟨rfl, rfl, rfl⟩
  | stopped busy live reset => exact ⟨rfl, rfl, rfl⟩

/-- **Every start takes the next number.** -/
theorem Move.numbers (hm : Move now given c j d) : Numbers c.session j d.session := by
  cases hm with
  | remark note isRemark => exact (uneventful_noted (Note.session?_of_isRemark isRemark)).numbers rfl rfl
  | start check cleared reset kind =>
    cases cleared with
    | empty vacant => exact ⟨rfl, rfl, rfl⟩
    | stopped busy live reset => exact ⟨rfl, rfl, rfl⟩
  | proceed phase live next silent => exact numbers_stepEntries _ _
  | ask phase live next asked => exact (numbers_stepEntries _ _).append ⟨rfl, rfl, rfl⟩
  | halt phase live next => exact (numbers_stepEntries _ _).append (numbers_farewell _)
  | supplyHalt phase hand pending live put =>
    exact Numbers.append (j := [.called _ _ (.put _ _ (some (.halt _)))]) ⟨rfl, rfl, rfl⟩ (numbers_farewell _)
  | stop busy cleared => exact cleared.numbers
  | _ => exact ⟨rfl, rfl, rfl⟩

theorem Moves.numbers [Presenter P] (hm : Moves now given c j d) : Numbers c.session j d.session := by
  induction hm with
  | refl => exact ⟨rfl, rfl, rfl⟩
  | step first _ ih => exact first.numbers.append ih

/-- what is last before a breakdown starts no session, though a program may have got past its check -/
theorem Broken.numbers (hb : Broken given c j) :
    starts j = [] ∧ accepted j ≤ 1 ∧ resets j = (stops j).length := by
  cases hb with
  | check check => exact ⟨rfl, Nat.zero_le _, rfl⟩
  | next phase live next =>
    obtain ⟨-, hrecords, hcalls⟩ := brokenStep_silent _ _ _
    obtain ⟨hstarts, hstops⟩ := uneventful_of_silent hrecords
    rw [hstarts, hstops, accepted, resets, hcalls]
    exact ⟨rfl, Nat.zero_le _, rfl⟩
  | put phase hand pending live put => exact ⟨rfl, Nat.zero_le _, rfl⟩
  | stop phase live reset => exact ⟨rfl, Nat.zero_le _, rfl⟩
  | stopOld check phase live reset => exact ⟨rfl, le_rfl, rfl⟩
  | startNew check cleared reset =>
    cases cleared with
    | empty vacant => exact ⟨rfl, le_rfl, rfl⟩
    | stopped busy live reset => exact ⟨rfl, le_rfl, rfl⟩

end Controller

end StepControl

/-
What the user is told of errors.

A call on an interpreter complains (`Call.complaint?`) where it rejects the program, and where it ends the session over a
fault of the program. A session that completes, and a fault that is internal, are no complaints.

(1) The ledger. The displays keep a ledger (`Ledger`): a call that complains owes them its error. A rejection is paid at
once; a fault after the progress of its step, and with the change to `faulted` right behind it. Until all is paid nothing
else may happen, an error that is not owed is never shown, and a session that has shown a fault may not have another one
before the displays are cleared.
- `Controller.Move.kept`: every move keeps the ledger and pays all, where the ledger's mark is the one that the controller
  keeps.
- `Controller.performAll_kept`: so does every run, also where it breaks down in the end.
- `Controller.Kept.aired`: and entries that keep it show exactly what was complained of, in order.

(2) Starts. `Controller.performAll_refusals`: the programs that were rejected are those whose starts failed.

(3) Internal faults. `Controller.performAll_reworded`: interpreters that only word their internal faults differently cannot
be told apart by what is announced; this is a mirror of the two runs (`Reworded`).

`Controller.performAll_aired` puts the three together, for every run of a new controller;
`Controller.performAll_aired_troubled` is one with all three kinds of trouble.

Premises: none of the interpreter in (1) and (2). In (3) the interpreters on the two sides go together (`Together`), that
is, they answer alike but for these texts.
-/
import StepControl.Proofs.Breakdowns
import StepControl.Proofs.Mirror
import StepControl.Proofs.Serial

namespace StepControl

/-! ## Complaints -/

def Notice.message? : Notice → Option String
  | .error message => some message
  | _ => none

/-- the message of the program's fault that ends the session -/
def Verdict.fault? : Verdict → Option String
  | .halt (.fault (.program message)) => some message
  | _ => none

namespace Call

def rejection? : Call → Option String
  | .check (some (.rejected message)) => some message
  | _ => none

/-- the message of the program's fault that a step or an input came to -/
def fault? : Call → Option String
  | .next _ _ answer | .put _ _ answer => answer.bind Verdict.fault?
  | _ => none

def complaint? (call : Call) : Option String := call.rejection? <|> call.fault?

/-- what a call has to announce before anything that follows from how it ended -/
def news : Call → List Notice
  | .next _ hooks (some _) => hooks.filterMap Controller.progress?
  | _ => []

/-- what a call owes the displays for a complaint -/
def dues (call : Call) : List Notice :=
  match call.fault? with
  | some message => call.news ++ [.error message, .phaseChanged .faulted]
  | none => call.rejection?.toList.map .error

theorem message?_of_mem_news {call : Call} {notice : Notice} (h : notice ∈ call.news) : notice.message? = none := by
  cases call with
  | next optimize hooks answer =>
    cases answer with
    | none => simp [news] at h
    | some verdict =>
      obtain ⟨hook, -, hnotice⟩ := List.mem_filterMap.1 (by simpa [news] using h)
      cases hook <;> simp [Controller.progress?] at hnotice <;> simp [← hnotice, Notice.message?]
  | _ => simp [news] at h

/-- a call owes the message of its complaint, and no other -/
theorem messages_dues (call : Call) : call.dues.filterMap Notice.message? = call.complaint?.toList := by
  have hnews : call.news.filterMap Notice.message? = [] := by
    simpa using fun notice hmem => message?_of_mem_news hmem
  unfold dues complaint?
  cases hfault : call.fault? with
  | none =>
    cases hrejection : call.rejection? with
    | none => rfl
    | some message => rfl
  | some message =>
    have hrejection : call.rejection? = none := by
      cases call <;> simp_all [fault?, rejection?]
    rw [hrejection]
    simp [hnews, Notice.message?]

end Call

/-- the message of a start that failed because the program does not parse -/
def Reply.refusal? (reply : Reply) : Option String :=
  match reply.toResult with
  | .error (.badProgram message) => some message
  | _ => none

namespace Controller

open StepControl.Action

variable {I : Type} {j k : List (Entry I)}

def messages (j : List (Entry I)) : List String := (notices j).filterMap Notice.message?

def complaints (j : List (Entry I)) : List String := (calls j).filterMap fun call => call.2.complaint?

def rejections (j : List (Entry I)) : List String := (calls j).filterMap fun call => call.2.rejection?

/-! ## The ledger of the displays -/

/-- what the displays are owed, to be shown next and in this order, and whether the session has shown a fault -/
structure Ledger where
  owed : List Notice := []
  spent : Bool

/-- the ledger after an entry; none where the entry goes against it -/
def Ledger.next? (l : Ledger) : Entry I → Option Ledger
  | .noted _ => some l
  | .loaded _ _ => if l.owed = [] then some l else none
  | .called _ _ call =>
    if l.owed = [] ∧ (call.fault?.isSome = true → l.spent = false) then
      some ⟨call.dues, l.spent || call.fault?.isSome⟩
    else none
  | .shown notice =>
    match l.owed with
    | first :: rest => if notice = first then some { l with owed := rest } else none
    | [] => if notice.message?.isSome = true then none else some { l with spent := l.spent && notice ≠ .reset }

/-- entries that keep the ledger, with how it stands before and after -/
def Kept (l : Ledger) (j : List (Entry I)) (m : Ledger) : Prop := j.foldlM Ledger.next? l = some m

variable {l m : Ledger}

@[simp] theorem kept_nil : Kept l ([] : List (Entry I)) m ↔ l = m := by
  simp [Kept]

theorem kept_cons {e : Entry I} : Kept l (e :: j) m ↔ ∃ n, l.next? e = some n ∧ Kept n j m := by
  simp [Kept, List.foldlM_cons, Option.bind_eq_some_iff]

theorem kept_append : Kept l (j ++ k) m ↔ ∃ n, Kept l j n ∧ Kept n k m := by
  simp [Kept, List.foldlM_append, Option.bind_eq_some_iff]

theorem Kept.append {n : Ledger} (h : Kept l j n) (h' : Kept n k m) : Kept l (j ++ k) m := kept_append.2 ⟨n, h, h'⟩

/-- log records are no concern of the displays -/
theorem kept_deeds : Kept l (deeds j) m ↔ Kept l j m := by
  induction j generalizing l with
  | nil => rfl
  | cons e j ih =>
    cases e with
    | noted note =>
      rw [kept_cons]
      simpa [deeds, Entry.note?, Ledger.next?] using ih
    | _ =>
      simp only [deeds, List.filter_cons, Entry.note?, Option.isNone_none, if_true, kept_cons]
      exact exists_congr fun n => and_congr_right fun _ => ih

/-- what is owed is shown -/
theorem kept_shown (ns owed : List Notice) (spent : Bool) :
    Kept ⟨ns ++ owed, spent⟩ (ns.map (.shown (I := I))) ⟨owed, spent⟩ := by
  induction ns with
  | nil => exact kept_nil.2 rfl
  | cons n ns ih => exact kept_cons.2 ⟨⟨ns ++ owed, spent⟩, by simp [Ledger.next?], ih⟩

theorem kept_notes (notes : List Note) : Kept l (notes.map (.noted (I := I))) l := by
  induction notes with
  | nil => exact kept_nil.2 rfl
  | cons note notes ih => exact kept_cons.2 ⟨l, rfl, ih⟩

/-! ## What a kept ledger says -/

/-- what is owed is shown next, where all is paid in the end -/
theorem Kept.pays (h : Kept l j m) (hm : m.owed = []) : ∃ rest, deeds j = l.owed.map .shown ++ rest := by
  induction j generalizing l with
  | nil =>
    obtain rfl := kept_nil.1 h
    exact ⟨[], by simp [hm, deeds]⟩
  | cons e j ih =>
    obtain ⟨n, hn, hj⟩ := kept_cons.1 h
    obtain ⟨rest, hrest⟩ := ih hj
    cases e with
    | noted note =>
      obtain rfl : l = n := by simpa [Ledger.next?] using hn
      exact ⟨rest, hrest⟩
    | shown notice =>
      cases howed : l.owed with
      | nil => exact ⟨_, rfl⟩
      | cons first owed =>
        simp only [Ledger.next?, howed] at hn
        split at hn
        case isFalse => simp at hn
        case isTrue hsame =>
          obtain rfl := Option.some.inj hn
          refine ⟨rest, ?_⟩
          rw [hsame]
          exact congrArg (Entry.shown first :: ·) hrest
    | loaded serial text =>
      have howed : l.owed = [] := by
        by_contra hne
        simp [Ledger.next?, hne] at hn
      exact ⟨_, by rw [howed]; rfl⟩
    | called serial before call =>
      have howed : l.owed = [] := by
        by_contra hne
        simp [Ledger.next?, hne] at hn
      exact ⟨_, by rw [howed]; rfl⟩

/-- an entry moves what is owed: its complaint is owed from now on, and an error that it shows was owed before -/
theorem Ledger.next?_messages {e : Entry I} {n : Ledger} (h : l.next? e = some n) :
    l.owed.filterMap Notice.message? ++ complaints [e] = messages [e] ++ n.owed.filterMap Notice.message? := by
  cases e with
  | noted note =>
    obtain rfl : l = n := by simpa [Ledger.next?] using h
    simp [complaints, messages]
  | loaded serial text =>
    obtain ⟨-, rfl⟩ : l.owed = [] ∧ l = n := by simpa [Ledger.next?] using h
    simp [complaints, messages]
  | called serial before call =>
    obtain ⟨⟨howed, -⟩, rfl⟩ : (l.owed = [] ∧ _) ∧ _ = n := by simpa [Ledger.next?] using h
    rw [howed, call.messages_dues]
    cases hcomplaint : call.complaint? <;> simp [complaints, messages, hcomplaint]
  | shown notice =>
    cases howed : l.owed with
    | nil =>
      obtain ⟨hmessage, rfl⟩ : notice.message? = none ∧ _ = n := by simpa [Ledger.next?, howed] using h
      simp [complaints, messages, hmessage]
    | cons first rest =>
      obtain ⟨rfl, rfl⟩ : notice = first ∧ _ = n := by simpa [Ledger.next?, howed] using h
      cases hmessage : notice.message? <;> simp [complaints, messages, hmessage]

theorem Kept.messages_eq (h : Kept l j m) :
    l.owed.filterMap Notice.message? ++ complaints j = messages j ++ m.owed.filterMap Notice.message? := by
  induction j generalizing l with
  | nil =>
    obtain rfl := kept_nil.1 h
    simp [complaints, messages]
  | cons e j ih =>
    obtain ⟨n, hn, hj⟩ := kept_cons.1 h
    have hcomplaints : complaints (e :: j) = complaints [e] ++ complaints j := by
      rw [complaints, ← List.singleton_append, calls_append, List.filterMap_append]
      rfl
    have hmessages : messages (e :: j) = messages [e] ++ messages j := by
      rw [messages, ← List.singleton_append, notices_append, List.filterMap_append]
      rfl
    rw [hcomplaints, hmessages, ← List.append_assoc, Ledger.next?_messages hn, List.append_assoc, ih hj,
      List.append_assoc]

/-- a session that has shown a fault has shown it until the displays are cleared -/
theorem Kept.spent (h : Kept l j m) (hl : l.spent = true) (hreset : .shown .reset ∉ j) : m.spent = true := by
  induction j generalizing l with
  | nil =>
    obtain rfl := kept_nil.1 h
    exact hl
  | cons e j ih =>
    obtain ⟨n, hn, hj⟩ := kept_cons.1 h
    refine ih hj ?_ fun hmem => hreset (List.mem_cons_of_mem e hmem)
    cases e with
    | noted note =>
      obtain rfl : l = n := by simpa [Ledger.next?] using hn
      exact hl
    | loaded serial text =>
      obtain ⟨-, rfl⟩ : l.owed = [] ∧ l = n := by simpa [Ledger.next?] using hn
      exact hl
    | called serial before call =>
      obtain ⟨-, rfl⟩ : (l.owed = [] ∧ _) ∧ _ = n := by simpa [Ledger.next?] using hn
      simp [hl]
    | shown notice =>
      have hne : notice ≠ .reset := by
        rintro rfl
        exact hreset List.mem_cons_self
      cases howed : l.owed with
      | nil =>
        obtain ⟨-, rfl⟩ : notice.message? = none ∧ _ = n := by simpa [Ledger.next?, howed] using hn
        simp [hl, hne]
      | cons first rest =>
        obtain ⟨-, rfl⟩ : notice = first ∧ _ = n := by simpa [Ledger.next?, howed] using hn
        exact hl

/-- what the errors that are shown have to do with the calls, log records apart -/
structure Aired (j : List (Entry I)) : Prop where
  /-- what is shown is what was complained of, in order -/
  messages : messages j = complaints j
  /-- a rejection is shown at once -/
  rejected : ∀ {front rest : List (Entry I)} {serial : Nat} {before : I} {message : String},
    deeds j = front ++ .called serial before (.check (some (.rejected message))) :: rest →
      ∃ more, rest = .shown (.error message) :: more
  /-- a fault of the program is shown after the progress of the step, and right before the session is faulted -/
  faulted : ∀ {front rest : List (Entry I)} {serial : Nat} {before : I} {call : Call} {message : String},
    deeds j = front ++ .called serial before call :: rest → call.fault? = some message →
      ∃ more, rest = call.news.map .shown ++ .shown (.error message) :: .shown (.phaseChanged .faulted) :: more
  /-- between two faults of the program the displays are cleared, for another session -/
  once : ∀ {front mid rest : List (Entry I)} {serial serial' : Nat} {before before' : I} {call call' : Call},
    deeds j = front ++ .called serial before call :: (mid ++ .called serial' before' call' :: rest) →
      call.fault?.isSome = true → call'.fault?.isSome = true → .shown .reset ∈ mid

/-- among entries without log records there are none later on either -/
theorem deeds_rest {front rest : List (Entry I)} {e : Entry I} (h : deeds j = front ++ e :: rest) : deeds rest = rest := by
  refine List.filter_eq_self.2 fun e' he => ?_
  have hmem : e' ∈ deeds j := h ▸ List.mem_append_right _ (List.mem_cons_of_mem _ he)
  exact (List.mem_filter.1 hmem).2

/-- what follows a call -/
theorem Kept.called {front rest : List (Entry I)} {serial : Nat} {before : I} {call : Call}
    (h : Kept l (front ++ .called serial before call :: rest) m) : ∃ spent, Kept ⟨call.dues, spent⟩ rest m ∧
      (call.fault?.isSome = true → spent = true ∧ ∃ n : Ledger, Kept l front n ∧ n.spent = false) := by
  obtain ⟨n, hfront, hcall⟩ := kept_append.1 h
  obtain ⟨n', hn, hrest⟩ := kept_cons.1 hcall
  obtain ⟨⟨-, hspent⟩, rfl⟩ : (n.owed = [] ∧ (call.fault?.isSome = true → n.spent = false)) ∧
      (⟨call.dues, n.spent || call.fault?.isSome⟩ : Ledger) = n' := by
    simpa [Ledger.next?] using hn
  exact ⟨_, hrest, fun hfault => ⟨by simp [hfault], n, hfront, hspent hfault⟩⟩

/-- **A run that keeps the ledger and pays all shows what was complained of.** -/
theorem Kept.aired (h : Kept l j m) (hl : l.owed = []) (hm : m.owed = []) : Aired j where
  messages := by simpa [hl, hm] using h.messages_eq.symm
  rejected := by
    intro front rest serial before message hj
    rw [← kept_deeds, hj] at h
    obtain ⟨spent, hrest, -⟩ := h.called
    obtain ⟨more, hmore⟩ := hrest.pays hm
    have hnotes : deeds rest = rest := deeds_rest hj
    exact ⟨more, hnotes ▸ hmore⟩
  faulted := by
    intro front rest serial before call message hj hfault
    rw [← kept_deeds, hj] at h
    obtain ⟨spent, hrest, -⟩ := h.called
    obtain ⟨more, hmore⟩ := hrest.pays hm
    have hnotes : deeds rest = rest := deeds_rest hj
    refine ⟨more, ?_⟩
    rw [← hnotes, hmore]
    simp [Call.dues, hfault]
  once := by
    intro front mid rest serial serial' before before' call call' hj hfault hfault'
    rw [← kept_deeds, hj] at h
    obtain ⟨spent, hrest, hspent⟩ := h.called
    obtain ⟨spent', -, hagain⟩ := hrest.called
    obtain ⟨-, n, hmid, hn⟩ := hagain hfault'
    by_contra hreset
    have hstill := hmid.spent (hspent hfault).1 hreset
    simp [hn] at hstill

/-! ## Entries that leave the ledger as it is -/

/-- entries with which nothing is complained of, no error is shown, and the displays are not cleared -/
def Quiet (j : List (Entry I)) : Prop := ∀ spent, Kept ⟨[], spent⟩ j ⟨[], spent⟩

theorem quiet_nil : Quiet ([] : List (Entry I)) := fun _ => kept_nil.2 rfl

theorem Quiet.append (h : Quiet j) (h' : Quiet k) : Quiet (j ++ k) := fun spent => (h spent).append (h' spent)

theorem quiet_notes (notes : List Note) : Quiet (notes.map (.noted (I := I))) := fun _ => kept_notes notes

theorem quiet_noted (note : Note) : Quiet [(.noted note : Entry I)] := quiet_notes [note]

theorem quiet_loaded (serial : Nat) (text : String) : Quiet [(.loaded serial text : Entry I)] := fun _ => rfl

theorem quiet_called {call : Call} (h : call.complaint? = none) (serial : Nat) (before : I) :
    Quiet [.called serial before call] := by
  obtain ⟨hrejection, hfault⟩ : call.rejection? = none ∧ call.fault? = none := by simpa [Call.complaint?] using h
  intro spent
  simp [Kept, Ledger.next?, Call.dues, hrejection, hfault]

theorem quiet_shown {notice : Notice} (h : notice.message? = none) (hreset : notice ≠ .reset) :
    Quiet [(.shown notice : Entry I)] := by
  intro spent
  simp [Kept, Ledger.next?, h, hreset]

theorem quiet_progress (hooks : List Hook) : Quiet ((hooks.filterMap progress?).map (.shown (I := I))) := by
  induction hooks with
  | nil => exact quiet_nil
  | cons hook hooks ih =>
    cases hook with
    | output byte => exact (quiet_shown rfl (by simp)).append ih
    | instruction index => exact (quiet_shown rfl (by simp)).append ih
    | requestInput cell => exact ih

variable {L P : Type} {c d : Controller I L P} {inst : Instance I}

theorem quiet_change (target : Phase) : Quiet (c.change target) :=
  (quiet_noted _).append (quiet_shown rfl (by simp))

theorem quiet_question (cell : Cell) : Quiet (c.question cell) :=
  (quiet_change _).append (quiet_shown rfl (by simp))

theorem quiet_teardown (target : Phase) : Quiet (c.teardown inst target) :=
  (quiet_called rfl _ _).append ((quiet_noted _).append (quiet_change target))

/-- the entries of a step after the call: the late requests and the progress -/
def stepTail (hooks : List Hook) : List (Entry I) :=
  (StepBuffer.late false hooks).map (.noted ∘ .requestTooLate) ++ (hooks.filterMap progress?).map .shown

theorem stepEntries_eq (hooks : List Hook) (verdict : Verdict) : c.stepEntries inst hooks verdict =
    .called inst.serial inst.machine (.next c.optimize hooks (some verdict)) :: stepTail hooks := rfl

theorem quiet_stepTail (hooks : List Hook) : Quiet (stepTail hooks : List (Entry I)) := by
  unfold stepTail
  rw [← List.map_map]
  exact (quiet_notes _).append (quiet_progress hooks)

/-- the progress of a step is shown where it is owed -/
theorem kept_stepTail (hooks : List Hook) (owed : List Notice) (spent : Bool) :
    Kept ⟨hooks.filterMap progress? ++ owed, spent⟩ (stepTail hooks : List (Entry I)) ⟨owed, spent⟩ := by
  unfold stepTail
  rw [← List.map_map]
  exact (kept_notes _).append (kept_shown _ owed spent)

/-- a step that does not end with a fault of the program -/
theorem quiet_stepEntries {verdict : Verdict} (h : verdict.fault? = none) (hooks : List Hook) :
    Quiet (c.stepEntries inst hooks verdict) :=
  (quiet_called (by simp [Call.complaint?, Call.rejection?, Call.fault?, h]) _ _).append (quiet_stepTail hooks)

theorem quiet_farewell {why : Halt} (h : (Verdict.halt why).fault? = none) : Quiet (c.farewell why) := by
  rcases why with _ | ⟨message⟩ | ⟨message⟩
  · exact (quiet_noted _).append (quiet_change _)
  · simp [Verdict.fault?] at h
  · exact (quiet_noted _).append (quiet_change _)

theorem isShown_eq (why : Halt) : why.isShown = (Verdict.halt why).fault?.isSome := by
  rcases why with _ | ⟨message⟩ | ⟨message⟩ <;> rfl

/-! ## What a controller does keeps the ledger -/

/-- a call that ends a session which has shown no fault, with its progress and the farewell -/
theorem kept_halt (call : Call) (why : Halt) {tail : List (Entry I)} (hrejection : call.rejection? = none)
    (hfault : call.fault? = (Verdict.halt why).fault?) (hquiet : Quiet tail)
    (htail : ∀ owed spent, Kept ⟨call.news ++ owed, spent⟩ tail ⟨owed, spent⟩) (serial : Nat) (before : I) :
    Kept ⟨[], false⟩ (.called serial before call :: tail ++ c.farewell why) ⟨[], why.isShown⟩ := by
  cases hwhy : (Verdict.halt why).fault? with
  | none =>
    have hcomplaint : call.complaint? = none := by rw [Call.complaint?, hrejection, hfault, hwhy]; rfl
    rw [isShown_eq, hwhy]
    exact (((quiet_called hcomplaint serial before).append hquiet).append (quiet_farewell hwhy)) false
  | some message =>
    obtain rfl : why = .fault (.program message) := by
      rcases why with _ | ⟨_⟩ | ⟨_⟩ <;> simp_all [Verdict.fault?]
    have hdues : call.dues = call.news ++ [.error message, .phaseChanged .faulted] := by
      rw [Call.dues, hfault]
      rfl
    refine kept_cons.2 ⟨⟨call.dues, true⟩, by simp [Ledger.next?, hfault, Verdict.fault?], ?_⟩
    rw [hdues]
    exact (htail _ true).append (by simp [Kept, farewell, change, Ledger.next?, Halt.isShown])

variable [Interpreter I]

theorem Cleared.quiet (h : Cleared c j d) : Quiet j := by
  cases h with
  | empty vacant => exact quiet_nil
  | stopped busy live reset => exact quiet_teardown _

theorem Cleared.errorShown_eq (h : Cleared c j d) : d.errorShown = c.errorShown := by
  cases h <;> rfl

variable [Loader L I] {now : Instant} {given : Option String}

omit [Interpreter I] in
theorem quiet_loadEntries : Quiet (c.loadEntries .accepted) := (quiet_loaded _ _).append (quiet_called rfl _ _)

/-- **Every move keeps the ledger**, and pays all: what the ledger says of the session is what the controller remembers of
it. -/
theorem Move.kept (h : Steady c) (hm : Move now given c j d) : Kept ⟨[], c.errorShown⟩ j ⟨[], d.errorShown⟩ := by
  cases hm with
  | remark note isRemark => exact quiet_noted note _
  | load text => exact quiet_nil _
  | setOptimize on => exact quiet_nil _
  | setDelay delay => exact quiet_noted _ _
  | refuse check => simp [Kept, refusal, loadEntries, Ledger.next?, Call.dues, Call.fault?, Call.rejection?, loaded]
  | @start d j machine target check cleared reset kind =>
    refine (quiet_loadEntries _).append ((cleared.quiet _).append ?_)
    have hbeginning : Kept ⟨[], c.errorShown⟩ (d.beginning c.built) ⟨[], false⟩ := by
      simp [Kept, beginning, Ledger.next?, Call.dues, Call.fault?, Call.rejection?, Notice.message?]
    exact hbeginning.append (quiet_change target _)
  | proceed phase live next silent => exact quiet_stepEntries rfl _ _
  | ask phase live next asked => exact ((quiet_stepEntries rfl _).append (quiet_question _)) _
  | @halt inst hooks machine why phase live next =>
    have hclean := h.errorShown (Phase.hasSession_of_canStep phase)
    have hhalt := kept_halt (c := c) (.next c.optimize hooks (some (.halt why))) why rfl rfl
      (quiet_stepTail hooks) (kept_stepTail hooks) inst.serial inst.machine
    rw [hclean, stepEntries_eq]
    simpa [hclean, halted, advanced] using hhalt
  | supply phase hand pending live put => exact ((quiet_called rfl _ _).append (quiet_change _)) _
  | @supplyHalt inst machine cell text why phase hand pending live put =>
    have hclean := h.errorShown (by rw [phase]; rfl)
    have hhalt := kept_halt (c := c) (.put cell text (some (.halt why))) why rfl rfl quiet_nil
      (fun _ _ => kept_nil.2 rfl) inst.serial inst.machine
    simpa [hclean, halted, advanced] using hhalt
  | pause phase => exact quiet_change _ _
  | resume phase => exact quiet_change _ _
  | stop busy cleared =>
    rw [cleared.errorShown_eq]
    exact cleared.quiet _
  | rearm phase live reset => exact quiet_teardown _ _

variable [Presenter P]

theorem Moves.kept (h : Steady c) (hm : Moves now given c j d) : Kept ⟨[], c.errorShown⟩ j ⟨[], d.errorShown⟩ := by
  induction hm with
  | refl => exact kept_nil.2 rfl
  | step first _ ih => exact (first.kept h).append (ih ((first.steady h).hear _))

omit [Presenter P] in
/-- over a call that breaks down nobody complains -/
theorem Broken.quiet (h : Broken given c j) : Quiet j := by
  cases h with
  | check check => exact (quiet_loaded _ _).append (quiet_called rfl _ _)
  | next phase live next =>
    rw [← List.map_map]
    exact (quiet_called rfl _ _).append (quiet_notes _)
  | put phase hand pending live put => exact quiet_called rfl _ _
  | stop phase live reset => exact quiet_called rfl _ _
  | stopOld check phase live reset => exact quiet_loadEntries.append (quiet_called rfl _ _)
  | startNew check cleared reset => exact quiet_loadEntries.append (cleared.quiet.append (quiet_called rfl _ _))

theorem Breakdown.kept (h : Steady c) (hb : Breakdown now given c j) : ∃ spent, Kept ⟨[], c.errorShown⟩ j ⟨[], spent⟩ := by
  obtain ⟨front, d, last, hmoves, hlast, rfl⟩ := hb
  exact ⟨d.errorShown, (hmoves.kept h).append (hlast.quiet _)⟩

/-- **Every run keeps the ledger and pays all**, also where it breaks down in the end. -/
theorem performAll_kept (h : Steady c) (hq : c.phase ≠ .steppingOnce) (ops : List (Instant × Operation)) :
    ∃ spent, Kept ⟨[], c.errorShown⟩ ((performAll ops : Drive I L P (List Reply)) c).journal ⟨[], spent⟩ := by
  induction ops generalizing c with
  | nil => exact ⟨_, kept_nil.2 rfl⟩
  | cons op ops ih =>
    obtain ⟨now, op⟩ := op
    cases hv : ((perform now op : Drive I L P Reply) c).value with
    | none =>
      rw [performAll_cons_broken ops hv]
      exact (perform_breaks h op hv).kept h
    | some reply =>
      obtain ⟨hmoves, hnext⟩ := perform_yields h hq op reply hv
      obtain ⟨spent, hrest⟩ := ih (hmoves.steady h) hnext
      rw [performAll_cons_apply ops hv]
      exact ⟨spent, (hmoves.kept h).append hrest⟩

/-! ## Starts that fail -/

omit [Interpreter I] in
@[simp] theorem rejections_append (j k : List (Entry I)) : rejections (j ++ k) = rejections j ++ rejections k := by
  rw [rejections, calls_append, List.filterMap_append]
  rfl

omit [Interpreter I] [Loader L I] [Presenter P] in
@[simp] theorem rejections_change (target : Phase) : rejections (c.change target) = [] := rfl

omit [Loader L I] in
/-- a step checks no program -/
theorem executeStep_rejections (h : Steady c) (hp : c.phase.canStep = true) :
    (executeStep now : Drive I L P Outcome).Yields c fun _ _ j => rejections j = [] := by
  rcases executeStep_cases now h hp with ⟨inst, hooks, verdict, machine, hl, hn⟩ | hbroken
  · refine ((gives_executeStep_end h hp hl hn now).imp ?_).yields
    intro _ d j hend
    cases hend <;> simp [rejections, Call.rejection?]
  · exact yields_of_none hbroken

omit [Presenter P] in
theorem rejections_startEntries (h : Cleared c.loaded j d) (target : Phase) : rejections (c.startEntries d j target) = [] := by
  cases h <;> simp [rejections, startEntries, loadEntries, greeting, beginning, teardown, Call.rejection?]

theorem run_refusals (h : Steady c) : (run now : Drive I L P (Except Error Unit)).Yields c fun result _ j =>
    rejections j = (Reply.result result).refusal?.toList := by
  rcases h.start_cases with ⟨message, hc⟩ | ⟨j, d, machine, hs⟩ | hbroken
  · refine Gives.yields ?_
    rw [gives_run_rejected hc]
    rfl
  · refine Gives.yields ?_
    rw [gives_run_accepted hs.check hs.cleared hs.reset]
    exact rejections_startEntries hs.cleared _
  · exact yields_of_none (run_breaks hbroken)

theorem firstStep_refusals (h : Steady c) : (firstStep now : Drive I L P (Except Error Outcome)).Yields c fun result _ j =>
    rejections j = (Reply.started result).refusal?.toList := by
  rcases h.start_cases with ⟨message, hc⟩ | ⟨j, d, machine, hs⟩ | hbroken
  · refine Gives.yields ?_
    rw [gives_firstStep_rejected hc]
    rfl
  · have hstart : Move now none c _ _ := .start hs.check hs.cleared hs.reset (Or.inr rfl)
    have hnone := rejections_startEntries hs.cleared .steppingOnce
    rw [yields_firstStep_started hs]
    refine (executeStep_rejections ((hstart.steady h).hear _) rfl).imp ?_
    intro outcome e k hk
    split
    · simp [hnone, hk, Reply.refusal?, Reply.toResult]
    · simp [hnone, hk, Reply.refusal?, Reply.toResult]
  · exact yields_of_none (firstStep_breaks hbroken)

omit [Loader L I] in
theorem stop_rejections (h : Steady c) : (stop : Drive I L P Unit).Yields c fun _ _ j => rejections j = [] := by
  rcases stop_cases h with hv | ⟨inst, machine, hp, hl, hr⟩ | hbroken
  · exact Gives.yields ((gives_stop_vacant hv).2 rfl)
  · exact Gives.yields ((gives_stop hp hl hr).2 rfl)
  · exact yields_of_none hbroken

omit [Loader L I] in
theorem supplyInput_refusals (h : Steady c) (text : String) :
    (supplyInput now text : Drive I L P (Except Error Unit)).Yields c fun result _ j =>
      rejections j = (Reply.result result).refusal?.toList := by
  rcases supplyInput_cases now text h with hp | ⟨hp, cell, inst, verdict, machine, hg, hl, ht⟩ | hbroken
  · exact Gives.yields ((gives_supplyInput_rejected hp now).2 rfl)
  · cases verdict with
    | proceed => exact Gives.yields ((gives_supplyInput_proceed hp hg hl ht now).2 rfl)
    | halt why =>
      refine Gives.yields ((gives_supplyInput_halt hp hg hl (h.errorShown (by rw [hp]; rfl)) ht now).2 ?_)
      simp [rejections, Call.rejection?, Reply.refusal?, Reply.toResult]
  · exact yields_of_none hbroken

omit [Interpreter I] [Loader L I] [Presenter P] in
/-- an action that rejects no program and whose reply tells of no refusal -/
theorem yields_unrefused {α : Type} {m : Drive I L P α} {f : α → Reply} (hf : ∀ a, (f a).refusal? = none)
    (h : m.Yields c fun _ _ j => rejections j = []) :
    (f <$> m).Yields c fun reply _ j => rejections j = reply.refusal?.toList := by
  rw [yields_map]
  refine h.imp ?_
  intro a _ j hj
  rw [hj, hf]
  rfl

omit [Loader L I] in
theorem step_rejections (h : Steady c) : (step now : Drive I L P (Option Outcome)).Yields c fun _ _ j => rejections j = [] := by
  by_cases hp : c.phase = .paused
  · rw [yields_congr (step_paused hp), yields_map]
    exact executeStep_rejections h (by rw [hp]; rfl)
  · exact yields_of_eq (step_ignored hp) rfl

omit [Loader L I] in
theorem tick_rejections (h : Steady c) : (tick now : Drive I L P (Option Outcome)).Yields c fun _ _ j => rejections j = [] := by
  by_cases hp : c.phase = .running
  · rw [yields_congr (tick_running hp), yields_map]
    exact executeStep_rejections h (by rw [hp]; rfl)
  · exact yields_of_eq (tick_dropped hp) rfl

omit [Interpreter I] [Loader L I] in
theorem pause_rejections : (pause : Drive I L P Unit).Yields c fun _ _ j => rejections j = [] := by
  refine Gives.yields ?_
  simp only [pause, gives_bind, gives_read]
  split
  · simp only [gives_bind, gives_update, gives_goTo]
    split <;> rfl
  · simp [rejections]
  · simp [rejections]

omit [Interpreter I] [Loader L I] in
theorem resume_rejections : (resume now : Drive I L P Unit).Yields c fun _ _ j => rejections j = [] := by
  refine Gives.yields ?_
  simp only [resume, gives_bind, gives_read, gives_ite, gives_arm, gives_goTo, gives_ignore]
  split
  · split <;> rfl
  · rfl

theorem intent_refusals (h : Steady c) (intent : Intent) :
    (perform now intent.operation : Drive I L P Reply).Yields c fun reply _ j => rejections j = reply.refusal?.toList := by
  cases intent with
  | run => exact (yields_map _ _).2 (run_refusals h)
  | firstStep => exact (yields_map _ _).2 (firstStep_refusals h)
  | step => exact yields_unrefused (fun _ => rfl) (step_rejections h)
  | stop => exact yields_unrefused (fun _ => rfl) (stop_rejections h)
  | supplyInput text => exact (yields_map _ _).2 (supplyInput_refusals h text)
  | setDelay millis =>
    refine (yields_map _ _).2 ?_
    by_cases hzero : millis = 0
    · refine Gives.yields ?_
      simp [setDelay, Delay.ofMillis, hzero, rejections, Reply.refusal?, Reply.toResult]
    · refine Gives.yields ?_
      simp [setDelay, Delay.ofMillis, hzero, rejections, Reply.refusal?, Reply.toResult]
  | pause => exact yields_unrefused (fun _ => rfl) pause_rejections
  | resume => exact yields_unrefused (fun _ => rfl) resume_rejections
  | load text => exact yields_of_eq rfl rfl
  | setOptimize on => exact yields_of_eq rfl rfl

theorem perform_refusals (h : Steady c) (op : Operation) :
    (perform now op : Drive I L P Reply).Yields c fun reply _ j => rejections j = reply.refusal?.toList := by
  rcases op.kinds with rfl | ⟨intent, rfl⟩ | ⟨intent, rfl⟩
  · exact yields_unrefused (fun _ => rfl) (tick_rejections h)
  · exact intent_refusals h intent
  · rw [yields_dispatch]
    exact intent_refusals h intent

/-- **Starts fail over rejections.** The messages of the starts that failed are those of the checks that rejected a program,
in order. -/
theorem performAll_refusals (h : Steady c) (hq : c.phase ≠ .steppingOnce) (ops : List (Instant × Operation)) :
    (performAll ops : Drive I L P (List Reply)).Yields c fun replies _ j => rejections j = replies.filterMap Reply.refusal? := by
  induction ops generalizing c with
  | nil => exact yields_of_eq rfl rfl
  | cons op ops ih =>
    simp only [performAll, yields_bind]
    intro reply hv
    have hrefusal := perform_refusals h op.2 reply hv
    obtain ⟨hmoves, hnext⟩ := perform_yields h hq op.2 reply hv
    refine (ih (hmoves.steady h) hnext).imp ?_
    intro replies d k hk
    refine yields_of_eq rfl ?_
    rw [List.append_nil, rejections_append, hrefusal, hk]
    cases hone : reply.refusal? <;> simp [hone]

/-! ## The wording of internal faults -/

variable {I' L' P' : Type} [Interpreter I'] [Loader L' I'] [Presenter P']

/-- interpreters that go together do the same and go on together, but for the texts of their internal faults; loaders that go
together build such interpreters from the same text -/
abbrev Reworded (machines : I → I' → Prop) (loaders : L → L' → Prop) : Prop := Together (fun _ _ => True) machines loaders

/-- the mirror that shows the announcements -/
def Reworded.mirror {machines : I → I' → Prop} {loaders : L → L' → Prop} (h : Reworded machines loaders) :
    Mirror I L I' L' Notice where
  phases := Eq
  timers := Eq
  instants := Eq
  faults _ _ := True
  machines := machines
  serials _ _ := True
  loaders := loaders
  sees := Entry.notice?
  sees' := Entry.notice?
  phases_still _ := rfl
  phases_apart h := Or.inl h
  timers_stop h := congrArg Timer.stop h
  timers_start h hnow := Timer.start_congr h hnow
  faults_refl _ := trivial
  serials_succ _ := trivial
  sees_noted _ := rfl
  sees_noted' _ := rfl
  sees_shown _ := rfl
  sees_loaded _ _ := rfl
  sees_called _ _ _ := rfl
  together := h

/-- **Nobody is told how an internal fault is worded.** -/
theorem performAll_reworded {machines : I → I' → Prop} {loaders : L → L' → Prop} (h : Reworded machines loaders)
    {loader : L} {loader' : L'} (hloader : loaders loader loader') (config : Config) (presenter : P) (presenter' : P')
    (ops : List (Instant × Operation)) :
    notices ((performAll ops : Drive I L P (List Reply)) (ofConfig config loader presenter)).journal =
      notices ((performAll ops : Drive I' L' P' (List Reply)) (ofConfig config loader' presenter')).journal := by
  have hplain : (Reworded.mirror h).Plain := ⟨Iff.rfl, fun _ => rfl, fun now delay ht => congrArg (Timer.setDelay now delay) ht⟩
  have hjoins : (Reworded.mirror h).Joins (ofConfig config loader presenter : Controller I L P)
      (ofConfig config loader' presenter' : Controller I' L' P') :=
    ⟨rfl, rfl, hloader, trivial, .none, rfl, rfl, rfl, rfl, rfl⟩
  exact (mirrors_performAll hplain ops _ _ hjoins).journal

/-- **What the user is told of errors.** In every run, with any operations at any instants, and with an interpreter that may
break down: what is shown is what was complained of, in order, each rejection at once, each fault of the program right before
the session is faulted, and never two faults without the displays being cleared in between. The programs that were rejected
are those whose starts failed for it. And whatever is announced is the same for interpreters that word their internal faults
differently. -/
theorem performAll_aired (config : Config) (loader : L) (presenter : P) (ops : List (Instant × Operation)) :
    Aired ((performAll ops : Drive I L P (List Reply)) (ofConfig config loader presenter)).journal ∧
      ((performAll ops : Drive I L P (List Reply)).Yields (ofConfig config loader presenter) fun replies _ j =>
        rejections j = replies.filterMap Reply.refusal?) ∧
      ∀ (I' L' P' : Type) [Interpreter I'] [Loader L' I'] [Presenter P'] (machines : I → I' → Prop) (loaders : L → L' → Prop)
        (loader' : L') (presenter' : P'), Reworded machines loaders → loaders loader loader' →
          notices ((performAll ops : Drive I L P (List Reply)) (ofConfig config loader presenter)).journal =
            notices ((performAll ops : Drive I' L' P' (List Reply)) (ofConfig config loader' presenter')).journal := by
  have hsteady := steady_ofConfig (I := I) config loader presenter
  have hphase : (ofConfig config loader presenter : Controller I L P).phase ≠ .steppingOnce := by simp [ofConfig]
  refine ⟨?_, performAll_refusals hsteady hphase ops, ?_⟩
  · obtain ⟨spent, hkept⟩ := performAll_kept hsteady hphase ops
    exact hkept.aired rfl rfl
  · intro I' L' P' _ _ _ machines loaders loader' presenter' hreworded hloader
    exact performAll_reworded hreworded hloader config presenter presenter' ops

/-- recitals with the same answers, but for the texts of their internal faults -/
structure SameRecital (r r' : Recital) : Prop where
  answer : r.answer = r'.answer
  steps : List.Forall₂ (fun s s' => s.1 = s'.1 ∧ Verdict.Near (fun _ _ => True) s.2 s'.2) r.steps r'.steps
  puts : List.Forall₂ (Verdict.Near fun _ _ => True) r.puts r'.puts

theorem sameRecital_reworded : Reworded SameRecital (List.Forall₂ SameRecital) where
  check h := congrArg some h.answer
  hooks := by
    rintro ⟨_, steps, _⟩ ⟨_, steps', _⟩ _ ⟨_, hsteps, _⟩
    cases hsteps with
    | nil => rfl
    | cons first _ => exact first.1
  next := by
    rintro ⟨_, steps, _⟩ ⟨_, steps', _⟩ _ ⟨hanswer, hsteps, hputs⟩
    cases hsteps with
    | nil => exact .some ⟨.proceed, hanswer, .nil, hputs⟩
    | cons first rest => exact .some ⟨first.2, hanswer, rest, hputs⟩
  put := by
    rintro ⟨_, _, puts⟩ ⟨_, _, puts'⟩ _ _ ⟨hanswer, hsteps, hputs⟩
    cases hputs with
    | nil => exact .some ⟨.proceed, hanswer, hsteps, .nil⟩
    | cons first rest => exact .some ⟨first, hanswer, hsteps, rest⟩
  reset h := .some h
  built := by
    rintro _ _ _ (_ | ⟨first, _⟩)
    · exact ⟨rfl, .nil, .nil⟩
    · exact first
  rest := by
    rintro _ _ _ (_ | ⟨_, rest⟩)
    · exact .nil
    · exact rest

/-- a program that does not parse, one with a fault of its own, and one that comes to an internal fault, worded in two ways -/
def troubled (wording : String) : List Recital :=
  [{ answer := .rejected "no" }, { steps := [([.output 65], .halt (.fault (.program "cell")))] },
    { steps := [([.output 66], .halt (.fault (.internal wording)))] }]

theorem performAll_aired_troubled :
    let ops : List (Instant × Operation) := [(0, .run), (1, .firstStep), (2, .firstStep)]
    let t := (performAll ops : Drive Recital (List Recital) Unit (List Reply)) (ofConfig {} (troubled "disk") ())
    let t' := (performAll ops : Drive Recital (List Recital) Unit (List Reply)) (ofConfig {} (troubled "net") ())
    (Aired t.journal ∧ notices t.journal = notices t'.journal) ∧ messages t.journal = ["no", "cell"] ∧
      t.value.map (List.filterMap Reply.refusal?) = some ["no"] := by
  intro ops t t'
  have hloaders : List.Forall₂ SameRecital (troubled "disk") (troubled "net") :=
    .cons ⟨rfl, .nil, .nil⟩ (.cons ⟨rfl, .cons ⟨rfl, .halt (.program _)⟩ .nil, .nil⟩
      (.cons ⟨rfl, .cons ⟨rfl, .halt (.internal trivial)⟩ .nil, .nil⟩ .nil))
  obtain ⟨haired, -, hreworded⟩ := performAll_aired {} (troubled "disk") () ops
  exact ⟨⟨haired, hreworded _ _ _ _ _ _ () sameRecital_reworded hloaders⟩, rfl, rfl⟩

end Controller

end StepControl

/-
The controller between operations.

At rest (`AtRest`) the fields of a controller agree with each other:
- the timer is armed in `running` only, and an input is pending in `awaitingInput` only;
- an interpreter is there wherever a step, an input or a look at a faulted program can want it;
- nothing of a step is left in the buffer;
- no fault counts as shown while a session is alive;
- the controller has no session number exactly as long as no start got past the check of its program.

All but the last are fields of what every move keeps (`Steady.atRest`). The number of the session needs the past: a start
that gets past its check leaves an entry of this check (`Entry.isAcceptance`), no other move does, and no other move changes
the number (`Move.session`).

Results:
- `performAll_atRest`: whatever operations are carried out on a new controller, in whatever order and at whatever instants,
  each of them returns and leaves the controller at rest.
- `performAll_atRest_choking`: a program that asks for two inputs in one step and chokes on the first, and a restart over a
  session that waits.

Premises: the interpreter never breaks down (`SoundInterpreter`), which is what makes every operation return. The loader,
the presenter and the configuration are arbitrary.
-/
import StepControl.Proofs.Runs

namespace StepControl

/-- an entry of a check that a program passed; a start gets past its check exactly then -/
def Entry.isAcceptance {I : Type} : Entry I → Bool
  | .called _ _ (.check (some .accepted)) => true
  | _ => false

namespace Controller

variable {I L P : Type} {c : Controller I L P}

/-- a controller after an operation, where `past` is all that happened since it was made -/
structure AtRest (past : List (Entry I)) (c : Controller I L P) : Prop where
  timer : c.timer.isActive = true ↔ c.phase = .running
  pending : c.pending.isSome = true ↔ c.phase = .awaitingInput
  live : c.phase ∈ [.running, .paused, .awaitingInput, .faulted] → c.live.isSome = true
  idle : c.phase = .idle → c.live = none
  phase : c.phase ≠ .steppingOnce
  buffer : c.buffer.events = [] ∧ c.buffer.requested = false
  errorShown : c.phase.hasSession = true → c.errorShown = false
  session : c.session = none ↔ ∀ e ∈ past, e.isAcceptance = false
  unstarted : c.session = none → c.phase = .idle

theorem Steady.atRest {past : List (Entry I)} (h : Steady c) (hq : c.phase ≠ .steppingOnce)
    (hs : c.session = none ↔ ∀ e ∈ past, e.isAcceptance = false) : AtRest past c where
  timer := h.timer
  pending := h.pending
  live hp := h.live (by revert hp; cases c.phase <;> decide)
  idle := h.idle
  phase := hq
  buffer := by rw [h.buffer]; exact ⟨rfl, rfl⟩
  errorShown := h.errorShown
  session := hs
  unstarted := h.session

/-- no entry of a change of phase is one of a check -/
theorem isAcceptance_farewell (why : Halt) : ∀ e ∈ c.farewell why, e.isAcceptance = false := by
  rcases why with _ | ⟨message⟩ | ⟨message⟩ <;> simp [farewell, change, Entry.isAcceptance]

theorem isAcceptance_question (cell : Cell) : ∀ e ∈ c.question cell, e.isAcceptance = false := by
  simp [question, change, Entry.isAcceptance]

theorem isAcceptance_stepEntries (inst : Instance I) (hooks : List Hook) (verdict : Verdict) :
    ∀ e ∈ c.stepEntries inst hooks verdict, e.isAcceptance = false := by
  intro e he
  simp only [stepEntries, List.mem_cons, List.mem_append, List.mem_map] at he
  rcases he with rfl | ⟨_, _, rfl⟩ | ⟨_, _, rfl⟩ <;> rfl

variable [Interpreter I] {d : Controller I L P} {j : List (Entry I)}

theorem Cleared.session_eq (h : Cleared c j d) : d.session = c.session := by
  cases h <;> rfl

variable [Loader L I] {now : Instant} {given : Option String}

/-- a move numbers a session exactly when it gets past the check of a program -/
theorem Move.session (h : Move now given c j d) :
    (d.session = c.session ∧ ∀ e ∈ j, e.isAcceptance = false) ∨ (d.session ≠ none ∧ ∃ e ∈ j, e.isAcceptance = true) := by
  cases h with
  | remark note isRemark => exact Or.inl ⟨rfl, by simp [Entry.isAcceptance]⟩
  | load text => exact Or.inl ⟨rfl, by simp⟩
  | setOptimize on => exact Or.inl ⟨rfl, by simp⟩
  | setDelay delay => exact Or.inl ⟨rfl, by simp [Entry.isAcceptance]⟩
  | refuse check => exact Or.inl ⟨rfl, by simp [refusal, loadEntries, Entry.isAcceptance]⟩
  | start check cleared reset kind =>
    exact Or.inr ⟨by simp [started, begun], _, List.mem_append_left _ (List.mem_cons_of_mem _ List.mem_cons_self), rfl⟩
  | proceed phase live next silent => exact Or.inl ⟨rfl, isAcceptance_stepEntries _ _ _⟩
  | ask phase live next asked =>
    refine Or.inl ⟨rfl, ?_⟩
    intro e he
    rcases List.mem_append.1 he with he | he
    · exact isAcceptance_stepEntries _ _ _ e he
    · exact isAcceptance_question _ e he
  | halt phase live next =>
    refine Or.inl ⟨rfl, ?_⟩
    intro e he
    rcases List.mem_append.1 he with he | he
    · exact isAcceptance_stepEntries _ _ _ e he
    · exact isAcceptance_farewell _ e he
  | supply phase hand pending live put => exact Or.inl ⟨rfl, by simp [change, Entry.isAcceptance]⟩
  | supplyHalt phase hand pending live put =>
    refine Or.inl ⟨rfl, ?_⟩
    intro e he
    rcases List.mem_cons.1 he with rfl | he
    · rfl
    · exact isAcceptance_farewell _ e he
  | pause phase => exact Or.inl ⟨rfl, by simp [change, Entry.isAcceptance]⟩
  | resume phase => exact Or.inl ⟨rfl, by simp [change, Entry.isAcceptance]⟩
  | stop busy cleared =>
    refine Or.inl ⟨cleared.session_eq, ?_⟩
    cases cleared <;> simp [teardown, change, Entry.isAcceptance]
  | rearm phase live reset => exact Or.inl ⟨rfl, by simp [teardown, change, Entry.isAcceptance]⟩

/-- **Between operations a controller is at rest.** Any operations on a new controller return one after the other, and
leave it at rest. -/
theorem performAll_atRest [Presenter P] [SoundInterpreter I] (config : Config) (loader : L) (presenter : P)
    (ops : List (Instant × Operation)) :
    (performAll ops : Drive I L P (List Reply)).Gives (ofConfig config loader presenter) fun replies d j =>
      replies.length = ops.length ∧ AtRest j d := by
  have hrun := performAll_invariant (I := I) (Q := fun past c => c.session = none ↔ ∀ e ∈ past, e.isAcceptance = false)
    ?_ (steady_ofConfig config loader presenter) (by simp [ofConfig]) [] (by simp [ofConfig]) ops
  · refine hrun.imp ?_
    intro replies d j hkept
    obtain ⟨hlen, hd, hq, hs⟩ := hkept
    exact ⟨hlen, hd.atRest hq hs⟩
  · intro now given past c j d hc hpast hm
    rcases hm.session with ⟨hsame, hj⟩ | ⟨hnew, e, he, hacc⟩
    · simp only [hear_session, hsame, hpast, List.mem_append]
      exact ⟨fun h e he => he.elim (h e) (hj e), fun h e he => h e (Or.inl he)⟩
    · refine ⟨fun h => absurd h hnew, ?_⟩
      intro h
      simp [h e (List.mem_append_right _ he)] at hacc

/-- a program that asks for two inputs in one step and chokes on the first, and a restart over a session that waits -/
theorem performAll_atRest_choking :
    let choking : Recital :=
      { steps := [([.output 65, .requestInput ⟨3⟩, .requestInput ⟨4⟩], .proceed)]
        puts := [.halt (.fault (.program "no digit"))] }
    let ops : List (Instant × Operation) :=
      [(0, .firstStep), (1, .supplyInput "x"), (2, .run), (3, .tick), (4, .dispatch .run)]
    (performAll ops : Drive Recital (List Recital) Unit (List Reply)).Gives
      (ofConfig {} [choking, choking, {}] ()) fun replies d j =>
        (replies.length = ops.length ∧ AtRest j d) ∧ d.phase = .running ∧ d.session = some 3 := by
  intro choking ops
  obtain ⟨replies, hv, hrest⟩ := performAll_atRest {} [choking, choking, {}] () ops
  exact ⟨replies, hv, hrest, by decide, by decide⟩

end Controller

end StepControl

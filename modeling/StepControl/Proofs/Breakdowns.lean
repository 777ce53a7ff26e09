/-
How an operation ends in which the interpreter breaks down.

An operation on a steady controller that does not return did some moves first, and then asked the interpreter for the call
that broke down; after that it wrote nothing but log records. The five calls that can break down are the check of a new
program, a step, an input, and the resets at the end and at the beginning of a session (`Broken`).

Partial results of an action that breaks down are said with `Leaves`, the counterpart of `Yields`: where the action does not
return, this holds of what it wrote. It has one equation for each way of putting actions together (`leaves_bind`,
`leaves_map`), so that what an operation leaves is read off its text.

Results:
- `Controller.perform_breaks`: what an operation did that broke down is some moves, and then what the interpreter broke down
  over (`Breakdown`).
- `Controller.Moves.sound`: an operation that returns asked for no call that broke down, so a breakdown and a call that
  broke down are the same thing.
- `Controller.Breakdown.ends`: nothing but log records follows a call that broke down, and no call broke down before it.

Premises: the controller is steady. Of the interpreter nothing is assumed: each of its calls may break down or return, as it
pleases. Whoever uses these results has to treat the five calls of `Broken`, and nothing else.
-/
import StepControl.Proofs.CallProtocol

namespace StepControl

def Call.isBroken : Call → Bool
  | .check answer => answer.isNone
  | .next _ _ answer | .put _ _ answer => answer.isNone
  | .reset done => !done

def Entry.isBroken {I : Type} : Entry I → Bool
  | .called _ _ call => call.isBroken
  | _ => false

/-! ## Actions that break down -/

namespace Action

variable {σ ε α β : Type} {s : σ} {post : List ε → Prop}

/-- where `m` breaks down from `s`, `post` holds of what it has written by then -/
def Leaves (m : Action σ ε α) (s : σ) (post : List ε → Prop) : Prop := (m s).value = none → post (m s).journal

theorem leaves_of_gives {m : Action σ ε α} (h : m.Gives s fun _ _ _ => True) : m.Leaves s post := by
  obtain ⟨a, ha, -⟩ := h
  intro hnone
  rw [ha] at hnone
  exact absurd hnone (by simp)

theorem leaves_of_returns {m : Action σ ε α} (h : (m s).value.isSome = true) : m.Leaves s post :=
  leaves_of_gives (Yields.gives (fun _ _ => trivial) h)

theorem leaves_bind (m : Action σ ε α) (f : α → Action σ ε β) :
    (m >>= f).Leaves s post ↔ m.Leaves s post ∧ m.Yields s fun a t j => (f a).Leaves t fun k => post (j ++ k) := by
  unfold Leaves Yields
  rw [bind_apply]
  cases hm : (m s).value with
  | none => simp
  | some a => simp

theorem leaves_map (f : α → β) (m : Action σ ε α) : (f <$> m).Leaves s post ↔ m.Leaves s post := by
  unfold Leaves
  rw [map_apply]
  simp

end Action

namespace Controller

open StepControl.Action

variable {I L P : Type} [Interpreter I] [Loader L I] [Presenter P] {c d : Controller I L P} {now : Instant}
  {given : Option String} {inst : Instance I} {j k : List (Entry I)}

/-! ## The last thing that a controller does -/

/-- what a controller does last where the interpreter breaks down -/
inductive Broken (given : Option String) (c : Controller I L P) : List (Entry I) → Prop where
  | check (check : Interpreter.check c.built.machine = none) :
      Broken given c [.loaded c.built.serial c.program, .called c.built.serial c.built.machine (.check none)]
  | next {inst : Instance I} {hooks : List Hook} (phase : c.phase.canStep = true) (live : c.live = some inst)
      (next : Interpreter.next inst.machine c.optimize = ⟨hooks, none⟩) :
      Broken given c (.called inst.serial inst.machine (.next c.optimize hooks none) ::
        (StepBuffer.late false hooks).map (.noted ∘ .requestTooLate))
  | put {inst : Instance I} {cell : Cell} {text : String} (phase : c.phase = .awaitingInput) (hand : given = some text)
      (pending : c.pending = some cell) (live : c.live = some inst)
      (put : Interpreter.put inst.machine cell text = none) :
      Broken given c [.called inst.serial inst.machine (.put cell text none)]
  | stop {inst : Instance I} (phase : c.phase.hasSession = true ∨ c.phase = .faulted) (live : c.live = some inst)
      (reset : Interpreter.reset inst.machine = none) : Broken given c [.called inst.serial inst.machine (.reset false)]
  | stopOld {inst : Instance I} (check : Interpreter.check c.built.machine = some .accepted)
      (phase : c.phase.hasSession = true) (live : c.live = some inst) (reset : Interpreter.reset inst.machine = none) :
      Broken given c (c.loadEntries .accepted ++ [.called inst.serial inst.machine (.reset false)])
  | startNew {d : Controller I L P} {j : List (Entry I)} (check : Interpreter.check c.built.machine = some .accepted)
      (cleared : Cleared c.loaded j d) (reset : Interpreter.reset c.built.machine = none) :
      Broken given c (c.loadEntries .accepted ++ (j ++ [.called c.built.serial c.built.machine (.reset false)]))

/-- what a controller does where the interpreter breaks down: some moves, and what is last -/
def Breakdown (now : Instant) (given : Option String) (c : Controller I L P) (j : List (Entry I)) : Prop :=
  ∃ front d last, Moves now given c front d ∧ Broken given d last ∧ j = front ++ last

theorem Broken.breakdown (h : Broken given c j) : Breakdown now given c j := ⟨[], c, j, .refl c, h, rfl⟩

theorem Breakdown.after (hm : Moves now given c j d) (h : Breakdown now given d k) : Breakdown now given c (j ++ k) := by
  obtain ⟨front, e, last, hfront, hlast, rfl⟩ := h
  exact ⟨j ++ front, e, last, hm.trans hfront, hlast, by rw [List.append_assoc]⟩

/-! ## What breaks down leaves behind -/

omit [Loader L I] in
/-- a step whose call is answered returns -/
theorem executeStep_returns (h : Steady c) (hl : c.live = some inst) {hooks : List Hook} {ending : Verdict × I}
    (hn : Interpreter.next inst.machine c.optimize = ⟨hooks, some ending⟩) :
    (executeStep now : Drive I L P Outcome).Gives c fun _ _ _ => True := by
  refine (gives_executeStep h hl hn now).2 (Yields.gives (fun _ _ => trivial) ?_)
  cases ending.1 with
  | proceed => exact (oblivious_settleStep now _).returns _
  | halt why => exact (oblivious_halt why).returns _

omit [Loader L I] in
/-- a step whose call breaks down comes no further -/
theorem executeStep_journal (h : Steady c) (hl : c.live = some inst) {hooks : List Hook}
    (hn : Interpreter.next inst.machine c.optimize = ⟨hooks, none⟩) :
    ((executeStep now : Drive I L P Outcome) c).journal =
      .called inst.serial inst.machine (.next c.optimize hooks none) ::
        (StepBuffer.late false hooks).map (.noted ∘ .requestTooLate) := by
  simp [executeStep, bind_apply, hl, hn, h.buffer, StepBuffer.fill_late]

theorem executeStep_leaves (given : Option String) (h : Steady c) (hp : c.phase.canStep = true) :
    (executeStep now : Drive I L P Outcome).Leaves c (Broken given c) := by
  obtain ⟨inst, hl⟩ := h.exists_live (Or.inl (Phase.hasSession_of_canStep hp))
  rcases hn : Interpreter.next inst.machine c.optimize with ⟨hooks, ending⟩
  cases ending with
  | none =>
    intro _
    rw [executeStep_journal h hl hn]
    exact .next hp hl hn
  | some ending => exact leaves_of_gives (executeStep_returns h hl hn)

omit [Loader L I] in
/-- a stop whose reset breaks down comes no further -/
theorem stop_journal (hp : c.phase.hasSession = true ∨ c.phase = .faulted) (hl : c.live = some inst)
    (hr : Interpreter.reset inst.machine = none) :
    ((stop : Drive I L P Unit) c).journal = [.called inst.serial inst.machine (.reset false)] := by
  cases hq : c.phase <;> simp [hq, Phase.hasSession] at hp
  all_goals simp [stop, resetInstance, bind_apply, hq, hl, hr]

theorem stop_leaves (h : Steady c) : (stop : Drive I L P Unit).Leaves c (Broken given c) := by
  by_cases hv : c.phase = .idle ∨ c.phase = .stopped
  · exact leaves_of_gives ((gives_stop_vacant hv).2 trivial)
  · have hp : c.phase.hasSession = true ∨ c.phase = .faulted := by
      cases hc : c.phase <;> simp_all [Phase.hasSession]
    obtain ⟨inst, hl⟩ := h.exists_live hp
    cases hr : Interpreter.reset inst.machine with
    | some machine => exact leaves_of_gives ((gives_stop hp hl hr).2 trivial)
    | none =>
      intro _
      rw [stop_journal hp hl hr]
      exact .stop hp hl hr

omit [Loader L I] in
/-- a session cannot begin where the interpreter before it breaks down over its reset, or the new one does -/
theorem begin_leaves (h : Steady c) (fresh : Instance I) : (begin fresh : Drive I L P Unit).Leaves c fun j =>
    (∃ inst, c.phase.hasSession = true ∧ c.live = some inst ∧ Interpreter.reset inst.machine = none ∧
        j = [.called inst.serial inst.machine (.reset false)]) ∨
      ∃ front d, Cleared c front d ∧ Interpreter.reset fresh.machine = none ∧
        j = front ++ [.called fresh.serial fresh.machine (.reset false)] := by
  cases hp : c.phase.hasSession with
  | false =>
    cases hr : Interpreter.reset fresh.machine with
    | some machine => exact leaves_of_gives ((gives_begin (.empty hp) hr).2 trivial)
    | none =>
      intro _
      refine Or.inr ⟨[], c, .empty hp, rfl, ?_⟩
      simp [begin, resetInstance, bind_apply, hp, hr]
  | true =>
    obtain ⟨inst, hl⟩ := h.exists_live (Or.inl hp)
    cases ho : Interpreter.reset inst.machine with
    | none =>
      intro _
      refine Or.inl ⟨inst, rfl, hl, ho, ?_⟩
      have hstop := stop_breaks (P := P) (L := L) (Or.inl hp) hl ho
      simp [begin, bind_apply, hp, hstop, stop_journal (Or.inl hp) hl ho]
    | some old =>
      have hcleared : Cleared c _ _ := .stopped hp hl ho
      cases hr : Interpreter.reset fresh.machine with
      | some machine => exact leaves_of_gives ((gives_begin hcleared hr).2 trivial)
      | none =>
        intro _
        refine Or.inr ⟨_, _, hcleared, rfl, ?_⟩
        have htarget : c.stopTarget = .stopped := if_neg (by rintro hf; simp [hf, Phase.hasSession] at hp)
        have hstop : (stop : Drive I L P Unit) c =
            ⟨some (), (c.ended c.stopTarget).hear (c.teardown inst c.stopTarget), c.teardown inst c.stopTarget⟩ :=
          eq_of_gives ((gives_stop (Or.inl hp) hl ho).2 ⟨rfl, rfl, rfl⟩)
        rw [htarget] at hstop
        simp [begin, resetInstance, bind_apply, hp, hstop, hr]

theorem start_leaves (h : Steady c) (hc : Interpreter.check c.built.machine = some .accepted) :
    (begin c.built : Drive I L P Unit).Leaves c.loaded fun j => Broken given c (c.loadEntries .accepted ++ j) := by
  intro hnone
  rcases begin_leaves h.loaded c.built hnone with ⟨inst, hp, hl, hr, hj⟩ | ⟨front, d, hcleared, hr, hj⟩
  · exact hj ▸ .stopOld hc hp hl hr
  · exact hj ▸ .startNew hc hcleared hr

/-- the check of a new program breaks down, or it is answered -/
theorem prepare_leaves : (prepare : Drive I L P (Except Error (Instance I))).Leaves c (Broken given c) := by
  cases hc : Interpreter.check c.built.machine with
  | none =>
    intro _
    have hjournal : ((prepare : Drive I L P (Except Error (Instance I))) c).journal =
        [.loaded c.built.serial c.program, .called c.built.serial c.built.machine (.check none)] := by
      simp only [built] at hc
      simp [prepare, bind_apply, hc, built]
    rw [hjournal]
    exact .check hc
  | some answer =>
    cases answer with
    | accepted => exact leaves_of_gives ((gives_prepare_accepted hc).2 trivial)
    | rejected message => exact leaves_of_gives ((gives_prepare_rejected hc).2 trivial)

/-- what goes before the beginning of a session breaks down as the start of the session does; `rest` is what the start goes
on with -/
theorem start_bind_leaves {α : Type} (h : Steady c) (rest : Instance I → Drive I L P (Except Error α))
    (hrest : ∀ j d machine, Starts c j d machine →
      (rest c.built).Leaves ((d.begun { c.built with machine }).hear (j ++ d.beginning c.built)) fun k =>
        Breakdown now given c (c.loadEntries .accepted ++ (j ++ d.beginning c.built ++ k))) :
    (prepare >>= fun prepared => match prepared with
      | .error e => pure (.error e)
      | .ok inst => begin inst >>= fun _ => rest inst : Drive I L P (Except Error α)).Leaves c (Breakdown now given c) := by
  rw [leaves_bind]
  refine ⟨fun hnone => (prepare_leaves hnone).breakdown, ?_⟩
  rcases h.start_cases with ⟨message, hc⟩ | ⟨j, d, machine, hs⟩ | hbroken
  · refine Gives.yields ((gives_prepare_rejected hc).2 ?_)
    exact leaves_of_gives ((gives_pure _).2 trivial)
  · refine Gives.yields ((gives_prepare_accepted hs.check).2 ?_)
    rw [leaves_bind]
    refine ⟨fun hnone => (start_leaves h hs.check hnone).breakdown, ?_⟩
    exact ((gives_begin hs.cleared hs.reset).2 (hrest j d machine hs)).yields
  · rcases hbroken with hc | ⟨hc, hbegin⟩
    · exact yields_of_none (prepare_breaks hc)
    · refine Gives.yields ((gives_prepare_accepted hc).2 ?_)
      rw [leaves_bind]
      exact ⟨fun hnone => (start_leaves h hc hnone).breakdown, yields_of_none hbegin⟩

theorem run_leaves (h : Steady c) :
    (run now : Drive I L P (Except Error Unit)).Leaves c (Breakdown now given c) := by
  refine start_bind_leaves h (fun _ => do arm now; goTo .running; pure (.ok ())) ?_
  intro j d machine _
  have hreturns : Oblivious (do arm now; goTo .running; pure (.ok ()) : Drive I L P (Except Error Unit)) :=
    .bind (oblivious_arm now) fun _ => .bind (oblivious_goTo _) fun _ => .pure _
  exact leaves_of_returns (hreturns.returns _)

theorem firstStep_leaves (h : Steady c) :
    (firstStep now : Drive I L P (Except Error Outcome)).Leaves c (Breakdown now given c) := by
  refine start_bind_leaves h (fun _ => do
    goTo .steppingOnce
    let outcome ← executeStep now
    let c ← Action.read
    if c.phase = .steppingOnce then goTo .paused
    pure (.ok outcome)) ?_
  intro j d machine hs
  have hstart : Move now given c _ _ := .start hs.check hs.cleared hs.reset (Or.inr rfl)
  rw [leaves_bind]
  refine ⟨leaves_of_returns ((oblivious_goTo _).returns _), yields_of_eq (hs.enters now) ?_⟩
  rw [leaves_bind]
  constructor
  · intro hnone
    have hlast := executeStep_leaves given ((hstart.steady h).hear (c.startEntries d j .steppingOnce)) rfl hnone
    simpa [startEntries, greeting] using Breakdown.after hstart.moves hlast.breakdown
  · intro outcome _
    have hreturns : Oblivious (do
        let c ← Action.read
        if c.phase = .steppingOnce then goTo .paused
        pure (.ok outcome) : Drive I L P (Except Error Outcome)) :=
      .read_bind (fun _ => rfl) fun _ => .ite (.bind (oblivious_goTo _) fun _ => .pure _) (.pure _)
    exact leaves_of_returns (hreturns.returns _)

theorem supplyInput_leaves {text : String} (h : Steady c) (hh : given = some text) :
    (supplyInput now text : Drive I L P (Except Error Unit)).Leaves c (Broken given c) := by
  by_cases hp : c.phase = .awaitingInput
  · obtain ⟨inst, hl⟩ := h.exists_live (Or.inl (by rw [hp]; rfl))
    obtain ⟨cell, hg⟩ := Option.isSome_iff_exists.1 (h.pending.2 hp)
    cases ht : Interpreter.put inst.machine cell text with
    | none =>
      intro _
      have hg' : c.gate.pending = some cell := hg
      have hjournal : ((supplyInput now text : Drive I L P (Except Error Unit)) c).journal =
          [.called inst.serial inst.machine (.put cell text none)] := by
        simp [supplyInput, bind_apply, hp, hl, Gate.supply, hg', ht]
      rw [hjournal]
      exact .put hp hh hg hl ht
    | some answer =>
      obtain ⟨verdict, machine⟩ := answer
      cases verdict with
      | proceed =>
        exact leaves_of_gives ((gives_supplyInput_proceed hp hg hl ht now).2 trivial)
      | halt why =>
        have herror : c.errorShown = false := h.errorShown (by rw [hp]; rfl)
        exact leaves_of_gives ((gives_supplyInput_halt hp hg hl herror ht now).2 trivial)
  · exact leaves_of_gives ((gives_supplyInput_rejected hp now).2 trivial)

theorem step_leaves (h : Steady c) : (step now : Drive I L P (Option Outcome)).Leaves c (Broken given c) := by
  by_cases hp : c.phase = .paused
  · have hstep : (some <$> executeStep now : Drive I L P (Option Outcome)).Leaves c (Broken given c) :=
      (leaves_map _ _).2 (executeStep_leaves _ h (by rw [hp]; rfl))
    unfold Leaves
    rw [step_paused hp]
    exact hstep
  · exact leaves_of_gives ((gives_of_eq (step_ignored hp)).2 trivial)

theorem tick_leaves (h : Steady c) : (tick now : Drive I L P (Option Outcome)).Leaves c (Broken given c) := by
  by_cases hp : c.phase = .running
  · have hstep : (some <$> executeStep now : Drive I L P (Option Outcome)).Leaves c (Broken given c) :=
      (leaves_map _ _).2 (executeStep_leaves _ h (by rw [hp]; rfl))
    unfold Leaves
    rw [tick_running hp]
    exact hstep
  · exact leaves_of_gives ((gives_of_eq (tick_dropped hp)).2 trivial)

theorem Leaves.breakdown {α : Type} {m : Drive I L P α} (h : m.Leaves c (Broken given c)) :
    m.Leaves c (Breakdown now given c) := fun hnone => (h hnone).breakdown

theorem intent_leaves (now : Instant) (h : Steady c) (intent : Intent) :
    (perform now intent.operation : Drive I L P Reply).Leaves c
      (Breakdown now (Operation.dispatch intent).input? c) := by
  cases intent with
  | run => exact (leaves_map _ _).2 (run_leaves h)
  | firstStep => exact (leaves_map _ _).2 (firstStep_leaves h)
  | step => exact (leaves_map _ _).2 (Leaves.breakdown (step_leaves h))
  | stop => exact (leaves_map _ _).2 (Leaves.breakdown (stop_leaves h))
  | supplyInput text => exact (leaves_map _ _).2 (Leaves.breakdown (supplyInput_leaves h rfl))
  | setDelay millis => exact (leaves_map _ _).2 (leaves_of_returns ((oblivious_setDelay now millis).returns c))
  | pause => exact (leaves_map _ _).2 (leaves_of_returns (oblivious_pause.returns c))
  | resume => exact (leaves_map _ _).2 (leaves_of_returns ((oblivious_resume now).returns c))
  | load text => exact leaves_of_returns rfl
  | setOptimize on => exact leaves_of_returns rfl

/-- **What an operation did that broke down**: some moves, and then what the interpreter broke down over. -/
theorem perform_breaks (h : Steady c) (op : Operation) :
    (perform now op : Drive I L P Reply).Leaves c (Breakdown now op.input? c) := by
  rcases op.kinds with rfl | ⟨intent, rfl⟩ | ⟨intent, rfl⟩
  · exact (leaves_map _ _).2 (Leaves.breakdown (tick_leaves h))
  · have hinput : intent.operation.input? = (Operation.dispatch intent).input? := by cases intent <;> rfl
    rw [hinput]
    exact intent_leaves now h intent
  · intro hnone
    rw [perform, map_apply, dispatch_apply] at hnone ⊢
    have hlast := intent_leaves now h intent (by simpa using hnone)
    exact Breakdown.after (Move.remark c _ rfl).moves hlast

/-! ## Calls that broke down -/

def Sound (j : List (Entry I)) : Prop := ∀ e ∈ j, e.isBroken = false

omit [Interpreter I] [Loader L I] [Presenter P] in
@[simp] theorem sound_nil : Sound ([] : List (Entry I)) := by simp [Sound]

omit [Interpreter I] in
@[simp] theorem sound_append : Sound (j ++ k) ↔ Sound j ∧ Sound k := List.forall_mem_append

omit [Interpreter I] in
@[simp] theorem sound_cons (e : Entry I) : Sound (e :: j) ↔ e.isBroken = false ∧ Sound j := List.forall_mem_cons

omit [Interpreter I] in
@[simp] theorem sound_noted (notes : List Note) : Sound (notes.map (.noted (I := I))) := by
  simp [Sound, Entry.isBroken]

omit [Interpreter I] in
@[simp] theorem sound_shown (ns : List Notice) : Sound (ns.map (.shown (I := I))) := by
  simp [Sound, Entry.isBroken]

omit [Interpreter I] [Loader L I] [Presenter P] in
@[simp] theorem sound_change (target : Phase) : Sound (c.change target) := by
  simp [change, Entry.isBroken]

omit [Interpreter I] [Loader L I] [Presenter P] in
@[simp] theorem sound_farewell (why : Halt) : Sound (c.farewell why) := by
  rcases why with _ | ⟨message⟩ | ⟨message⟩ <;> simp [farewell, Entry.isBroken]

omit [Interpreter I] [Loader L I] [Presenter P] in
@[simp] theorem sound_stepEntries (hooks : List Hook) (verdict : Verdict) : Sound (c.stepEntries inst hooks verdict) := by
  simp only [stepEntries, ← List.map_map, sound_cons, sound_append, sound_noted, sound_shown]
  exact ⟨rfl, trivial, trivial⟩

omit [Interpreter I] [Presenter P] in
@[simp] theorem sound_loadEntries (answer : Check) : Sound (c.loadEntries answer) := by
  simp [loadEntries, Entry.isBroken, Call.isBroken]

omit [Loader L I] [Presenter P] in
theorem Cleared.sound (h : Cleared c j d) : Sound j := by
  cases h <;> simp [teardown, Entry.isBroken, Call.isBroken]

omit [Presenter P] in
/-- **In a move no call breaks down.** -/
theorem Move.sound (h : Move now given c j d) : Sound j := by
  cases h with
  | start check cleared reset kind =>
    simp [startEntries, greeting, beginning, cleared.sound, Entry.isBroken, Call.isBroken]
  | stop busy cleared => exact cleared.sound
  | _ => simp [refusal, question, teardown, Entry.isBroken, Call.isBroken]

theorem Moves.sound (h : Moves now given c j d) : Sound j := by
  induction h with
  | refl => exact sound_nil
  | step first _ ih => exact sound_append.2 ⟨first.sound, ih⟩

/-- entries that end with a call that broke down, but for log records -/
def EndsBroken (j : List (Entry I)) : Prop :=
  ∃ front serial before call, ∃ notes : List Note, j = front ++ .called serial before call :: notes.map .noted ∧
    call.isBroken = true ∧ Sound front

omit [Presenter P] in
theorem Broken.ends (h : Broken given c j) : EndsBroken j := by
  cases h with
  | check check => exact ⟨[.loaded _ _], _, _, _, [], rfl, rfl, by simp [Entry.isBroken]⟩
  | next phase live next => exact ⟨[], _, _, _, _, by rw [← List.map_map]; rfl, rfl, sound_nil⟩
  | put phase hand pending live put => exact ⟨[], _, _, _, [], rfl, rfl, sound_nil⟩
  | stop phase live reset => exact ⟨[], _, _, _, [], rfl, rfl, sound_nil⟩
  | stopOld check phase live reset => exact ⟨c.loadEntries .accepted, _, _, _, [], rfl, rfl, sound_loadEntries _⟩
  | @startNew d j check cleared reset =>
    refine ⟨c.loadEntries .accepted ++ j, c.built.serial, c.built.machine, .reset false, [], ?_, rfl, ?_⟩
    · rw [List.append_assoc]
      rfl
    · exact sound_append.2 ⟨sound_loadEntries _, cleared.sound⟩

/-- **Nothing but log records follows a call that breaks down**, and no call broke down before it. -/
theorem Breakdown.ends (h : Breakdown now given c j) : EndsBroken j := by
  obtain ⟨moves, d, last, hmoves, hlast, rfl⟩ := h
  obtain ⟨front, serial, before, call, notes, rfl, hcall, hfront⟩ := hlast.ends
  exact ⟨moves ++ front, serial, before, call, notes, by rw [List.append_assoc], hcall, sound_append.2 ⟨hmoves.sound, hfront⟩⟩

end Controller

end StepControl

/-
Two controllers that mirror each other.

A `Mirror` says what goes together on the two sides: phases, timers, instants, interpreters and their numbers, loaders, and
the texts of internal faults. It also says which part of the entries is seen on each side, and it carries the laws that make
a simulation of it: interpreters that go together answer alike and go on together (`Together`), phases that differ on the
two sides are ones in which steps can be taken, timers that are armed or switched off on both sides go together again. Log
records are never seen, and what the presenters make of an announcement never matters.

Controllers that are joined by a mirror (`Mirror.Joins`) do the same, as far as it is seen, and stay joined (`Mirrors`).
There is one lemma for each action that operations are made of, and these follow their texts:
- `mirrors_executeStep`, `mirrors_supplyInput`, `mirrors_stop`, `mirrors_begin`, `mirrors_prepare`: these hold in every
  mirror, as they ask for the phase only where steps are taken or not.
- `mirrors_perform`, `mirrors_performAll`: whole operations look at the phase, so they are mirrored where the mirror shows
  phases and instants as they are (`Mirror.Plain`).

Mirrors in use: one for controllers that are alike (`Alike`), one for timers that are laid down on one side only
(`Cadence`), and one for interpreters that word their internal faults differently (`Complaints`).

Premises: the laws of the mirror, which whoever makes one has to show. Interpreters may break down; those that go together
do so together.
-/
import Mathlib.Data.List.Forall2
import StepControl.Proofs.Runs
import StepControl.Proofs.SideBySide

namespace StepControl

/-! ## The same but for internal faults -/

section

variable (faults : String → String → Prop)

/-- the same end, where the texts of internal faults may differ as far as `faults` allows -/
inductive Halt.Near : Halt → Halt → Prop where
  | completion : Near .completion .completion
  | program (message : String) : Near (.fault (.program message)) (.fault (.program message))
  | internal {message message' : String} (allowed : faults message message') :
      Near (.fault (.internal message)) (.fault (.internal message'))

inductive Verdict.Near : Verdict → Verdict → Prop where
  | proceed : Near .proceed .proceed
  | halt {why why' : Halt} (near : why.Near faults why') : Near (.halt why) (.halt why')

inductive Outcome.Near : Outcome → Outcome → Prop where
  | same (outcome : Outcome) : Near outcome outcome
  | internal {message message' : String} (allowed : faults message message') :
      Near (.faulted (.internal message)) (.faulted (.internal message'))

inductive Call.Near : Call → Call → Prop where
  | check (answer : Option Check) : Near (.check answer) (.check answer)
  | next (optimize : Bool) (hooks : List Hook) {answer answer' : Option Verdict}
      (near : Option.Rel (Verdict.Near faults) answer answer') :
      Near (.next optimize hooks answer) (.next optimize hooks answer')
  | put (cell : Cell) (text : String) {answer answer' : Option Verdict}
      (near : Option.Rel (Verdict.Near faults) answer answer') : Near (.put cell text answer) (.put cell text answer')
  | reset (done : Bool) : Near (.reset done) (.reset done)

inductive Reply.Near : Reply → Reply → Prop where
  | nothing : Near .nothing .nothing
  | result (result : Except Error Unit) : Near (.result result) (.result result)
  | refused (e : Error) : Near (.started (.error e)) (.started (.error e))
  | started {outcome outcome' : Outcome} (near : outcome.Near faults outcome') :
      Near (.started (.ok outcome)) (.started (.ok outcome'))
  | ignored : Near (.stepped none) (.stepped none)
  | stepped {outcome outcome' : Outcome} (near : outcome.Near faults outcome') :
      Near (.stepped (some outcome)) (.stepped (some outcome'))

end

/-- the results are the same -/
theorem Reply.Near.toResult {faults : String → String → Prop} {reply reply' : Reply} (h : reply.Near faults reply') :
    reply.toResult = reply'.toResult := by
  cases h <;> rfl

/-! Where the texts of internal faults are the same, everything is. -/

theorem Verdict.near_eq {verdict verdict' : Verdict} : verdict.Near Eq verdict' ↔ verdict = verdict' := by
  constructor
  · rintro (_ | ⟨_ | _ | ⟨rfl⟩⟩) <;> rfl
  · rintro rfl
    rcases verdict with _ | ⟨_ | _ | _⟩
    · exact .proceed
    · exact .halt .completion
    · exact .halt (.program _)
    · exact .halt (.internal rfl)

theorem Outcome.Near.eq {outcome outcome' : Outcome} (h : outcome.Near Eq outcome') : outcome = outcome' := by
  rcases h with _ | ⟨rfl⟩ <;> rfl

theorem Call.Near.eq {call call' : Call} (h : call.Near Eq call') : call = call' := by
  have hanswer : ∀ {a b : Option Verdict}, Option.Rel (Verdict.Near Eq) a b → a = b := by
    rintro _ _ (hab | _)
    · rw [Verdict.near_eq.1 hab]
    · rfl
  cases h with
  | check => rfl
  | next optimize hooks near => rw [hanswer near]
  | put cell text near => rw [hanswer near]
  | reset => rfl

theorem Reply.Near.eq {reply reply' : Reply} (h : reply.Near Eq reply') : reply = reply' := by
  cases h with
  | started near => rw [near.eq]
  | stepped near => rw [near.eq]
  | _ => rfl

/-! ## Interpreters that go together -/

variable {I L I' L' : Type} [Interpreter I] [Loader L I] [Interpreter I'] [Loader L' I']

/-- interpreters that go together do the same and go on together, where the texts of internal faults may differ as far as
`faults` allows; and loaders that go together build such interpreters from the same text -/
structure Together (faults : String → String → Prop) (machines : I → I' → Prop) (loaders : L → L' → Prop) : Prop where
  check : ∀ {i i'}, machines i i' → Interpreter.check i = Interpreter.check i'
  hooks : ∀ {i i'} (optimize), machines i i' → (Interpreter.next i optimize).hooks = (Interpreter.next i' optimize).hooks
  next : ∀ {i i'} (optimize), machines i i' →
    Option.Rel (fun a b => Verdict.Near faults a.1 b.1 ∧ machines a.2 b.2) (Interpreter.next i optimize).ending
      (Interpreter.next i' optimize).ending
  put : ∀ {i i'} (cell text), machines i i' →
    Option.Rel (fun a b => Verdict.Near faults a.1 b.1 ∧ machines a.2 b.2) (Interpreter.put i cell text)
      (Interpreter.put i' cell text)
  reset : ∀ {i i'}, machines i i' → Option.Rel machines (Interpreter.reset i) (Interpreter.reset i')
  built : ∀ {l l'} (text), loaders l l' → machines (Loader.load l text).1 (Loader.load l' text).1
  rest : ∀ {l l'} (text), loaders l l' → loaders (Loader.load l text).2 (Loader.load l' text).2

/-- an ending goes together with itself -/
theorem ending_same {S : Type} (a : Option (Verdict × S)) :
    Option.Rel (fun a b => Verdict.Near Eq a.1 b.1 ∧ a.2 = b.2) a a := by
  cases a with
  | none => exact .none
  | some a => exact .some ⟨Verdict.near_eq.2 rfl, rfl⟩

theorem rel_same {S : Type} (a : Option S) : Option.Rel Eq a a := by
  cases a with
  | none => exact .none
  | some a => exact .some rfl

/-- the same interpreters go together -/
theorem together_same {I L L' : Type} [Interpreter I] [Loader L I] [Loader L' I] {loaders : L → L' → Prop}
    (built : ∀ {l l'} (text), loaders l l' → (Loader.load l text).1 = (Loader.load l' text).1)
    (rest : ∀ {l l'} (text), loaders l l' → loaders (Loader.load l text).2 (Loader.load l' text).2) :
    Together (@Eq String) (@Eq I) loaders where
  check h := by rw [h]
  hooks _ h := by rw [h]
  next _ h := h ▸ ending_same _
  put _ _ h := h ▸ ending_same _
  reset h := h ▸ rel_same _
  built := built
  rest := rest

/-- the same timers that are armed at the same instant -/
theorem Timer.start_congr {t u : Timer} {now now' : Instant} (h : t = u) (hnow : now = now') :
    t.start now = u.start now' := by rw [h, hnow]

/-! ## Mirrors -/

/-- what goes together on two sides, where the interpreters `I` and `I'` are built by the loaders `L` and `L'`, and what is
seen of the entries -/
structure Mirror (I L I' L' δ : Type) [Interpreter I] [Loader L I] [Interpreter I'] [Loader L' I'] where
  phases : Phase → Phase → Prop
  timers : Timer → Timer → Prop
  instants : Instant → Instant → Prop
  /-- texts of internal faults -/
  faults : String → String → Prop
  machines : I → I' → Prop
  /-- numbers of interpreters -/
  serials : Nat → Nat → Prop
  loaders : L → L' → Prop
  /-- what is seen of an entry on the one side -/
  sees : Entry I → Option δ
  /-- what is seen of an entry on the other side -/
  sees' : Entry I' → Option δ
  phases_still : ∀ {p}, p.canStep = false → phases p p
  phases_apart : ∀ {p q}, phases p q → p = q ∨
    p.canStep = true ∧ q.canStep = true ∧ ∀ target, sees (.shown (.phaseChanged target)) = none
  timers_stop : ∀ {t u}, timers t u → timers t.stop u.stop
  timers_start : ∀ {t u now now'}, timers t u → instants now now' → timers (t.start now) (u.start now')
  faults_refl : ∀ message, faults message message
  serials_succ : ∀ {n n'}, serials n n' → serials (n + 1) (n' + 1)
  sees_noted : ∀ note, sees (.noted note) = none
  sees_noted' : ∀ note, sees' (.noted note) = none
  sees_shown : ∀ notice, sees (.shown notice) = sees' (.shown notice)
  sees_loaded : ∀ {n n'} (text), serials n n' → sees (.loaded n text) = sees' (.loaded n' text)
  sees_called : ∀ {i i' n n' call call'}, machines i i' → serials n n' → Call.Near faults call call' →
    sees (.called n i call) = sees' (.called n' i' call')
  together : Together faults machines loaders

namespace Mirror

variable {I L P I' L' P' δ α β : Type} [Interpreter I] [Loader L I] [Interpreter I'] [Loader L' I']
  (K : Mirror I L I' L' δ)

/-- interpreters with their numbers -/
structure Twins (inst : Instance I) (inst' : Instance I') : Prop where
  machine : K.machines inst.machine inst'.machine
  serial : K.serials inst.serial inst'.serial

/-- the controllers are joined -/
structure Joins (c : Controller I L P) (d : Controller I' L' P') : Prop where
  phase : K.phases c.phase d.phase
  timer : K.timers c.timer d.timer
  loader : K.loaders c.loader d.loader
  loads : K.serials c.loads d.loads
  live : Option.Rel K.Twins c.live d.live
  program : c.program = d.program
  optimize : c.optimize = d.optimize
  buffer : c.buffer = d.buffer
  gate : c.gate = d.gate
  errorShown : c.errorShown = d.errorShown

/-- wherever controllers are joined the actions do the same as far as it is seen, and leave them joined -/
abbrev Mirrors (V : α → β → Prop) (m : Drive I L P α) (k : Drive I' L' P' β) : Prop :=
  Action.Coupled K.Joins K.sees K.sees' V m k

/-- phases and instants are shown as they are, and a change of the delay is mirrored as well -/
structure Plain : Prop where
  phases : ∀ {p q}, K.phases p q ↔ p = q
  instants : ∀ now, K.instants now now
  setDelay : ∀ {t u} (now delay), K.timers t u → K.timers (t.setDelay now delay) (u.setDelay now delay)

variable {K} {c : Controller I L P} {d : Controller I' L' P'}

theorem Joins.live_cases (h : K.Joins c d) : (c.live = none ∧ d.live = none) ∨
    ∃ inst inst', c.live = some inst ∧ d.live = some inst' ∧ K.Twins inst inst' := by
  have hlive := h.live
  generalize c.live = l at hlive ⊢
  generalize d.live = l' at hlive ⊢
  cases hlive with
  | none => exact Or.inl ⟨rfl, rfl⟩
  | some twins => exact Or.inr ⟨_, _, rfl, rfl, twins⟩

/-- the controllers are in the same phase, except where both could take a step -/
theorem Joins.phase_iff (h : K.Joins c d) {p : Phase} (hp : p.canStep = false) : c.phase = p ↔ d.phase = p := by
  rcases K.phases_apart h.phase with hsame | ⟨hc, hd, -⟩
  · rw [hsame]
  · constructor
    · rintro rfl
      simp [hp] at hc
    · rintro rfl
      simp [hp] at hd

theorem Joins.hasSession_eq (h : K.Joins c d) : c.phase.hasSession = d.phase.hasSession := by
  rcases K.phases_apart h.phase with hsame | ⟨hc, hd, -⟩
  · rw [hsame]
  · rw [Phase.hasSession_of_canStep hc, Phase.hasSession_of_canStep hd]

end Mirror

namespace Controller

open StepControl.Action

variable {I L P I' L' P' δ : Type} [Interpreter I] [Loader L I] [Interpreter I'] [Loader L' I']
  {K : Mirror I L I' L' δ} {now now' : Instant}

/-! ## The small actions -/

theorem mirrors_note (notes notes' : List Note) :
    K.Mirrors Eq (note notes : Drive I L P Unit) (note notes' : Drive I' L' P' Unit) := by
  have hnotes : (notes.map Entry.noted).filterMap K.sees = [] := by simp [K.sees_noted]
  have hnotes' : (notes'.map Entry.noted).filterMap K.sees' = [] := by simp [K.sees_noted']
  exact .write (hnotes.trans hnotes'.symm)

theorem mirrors_called {inst : Instance I} {inst' : Instance I'} {call call' : Call} (h : K.Twins inst inst')
    (hcall : Call.Near K.faults call call') :
    K.Mirrors Eq (called inst call : Drive I L P Unit) (called inst' call' : Drive I' L' P' Unit) := by
  refine .write ?_
  simp only [List.filterMap_cons, K.sees_called h.machine h.serial hcall, List.filterMap_nil]

theorem mirrors_ignore (intent : Intent) :
    K.Mirrors Eq (ignore intent : Drive I L P Unit) (ignore intent : Drive I' L' P' Unit) :=
  .read_bind fun _ _ _ => mirrors_note _ _

theorem mirrors_disarm : K.Mirrors Eq (disarm : Drive I L P Unit) (disarm : Drive I' L' P' Unit) :=
  .update fun _ _ h => { h with timer := K.timers_stop h.timer, gate := rfl }

theorem mirrors_arm (hnow : K.instants now now') :
    K.Mirrors Eq (arm now : Drive I L P Unit) (arm now' : Drive I' L' P' Unit) :=
  .update fun _ _ h => { h with timer := K.timers_start h.timer hnow }

theorem isSome_eq {α β : Type} {R : α → β → Prop} {a : Option α} {b : Option β} (h : Option.Rel R a b) :
    a.isSome = b.isSome := by
  cases h <;> rfl

theorem mirrors_resetInstance {inst : Instance I} {inst' : Instance I'} (h : K.Twins inst inst') :
    K.Mirrors K.Twins (resetInstance inst : Drive I L P (Instance I))
      (resetInstance inst' : Drive I' L' P' (Instance I')) := by
  have hreset := K.together.reset h.machine
  have hdone := isSome_eq hreset
  unfold resetInstance
  refine .bind_eq (mirrors_called h (hdone ▸ .reset _)) fun _ => .bind (.demand hreset) fun _ _ hmachine => .pure ?_
  exact { machine := hmachine, serial := h.serial }

variable [Presenter P] [Presenter P']

theorem mirrors_announce (notice : Notice) :
    K.Mirrors Eq (announce notice : Drive I L P Unit) (announce notice : Drive I' L' P' Unit) := by
  refine fun _ _ h => agrees_of_eq rfl rfl ?_ ⟨rfl, { h with }⟩
  simp only [List.filterMap_cons, K.sees_shown, List.filterMap_nil]

theorem mirrors_announceAll (ns : List Notice) :
    K.Mirrors Eq (announceAll ns : Drive I L P Unit) (announceAll ns : Drive I' L' P' Unit) := by
  induction ns with
  | nil => exact .pure rfl
  | cons n ns ih => exact (mirrors_announce n).bind_eq fun _ => ih

/-- both sides make a change of phase, or none does, or one of them makes it and it is not seen -/
theorem mirrors_goTo {target : Phase} (htarget : K.phases target target) :
    K.Mirrors Eq (goTo target : Drive I L P Unit) (goTo target : Drive I' L' P' Unit) := by
  intro c d h
  have hunseen : c.phase ≠ d.phase → K.sees (.shown (.phaseChanged target)) = none := by
    intro hne
    rcases K.phases_apart h.phase with hsame | ⟨-, -, hunseen⟩
    · exact absurd hsame hne
    · exact hunseen target
  by_cases hc : c.phase = target
  · by_cases hd : d.phase = target
    · exact agrees_of_eq (by rw [goTo_apply, if_pos hc]) (by rw [goTo_apply, if_pos hd]) rfl ⟨rfl, h⟩
    · refine agrees_of_eq (by rw [goTo_apply, if_pos hc]) (by rw [goTo_apply, if_neg hd]) ?_ ⟨rfl, ?_⟩
      · simp [K.sees_noted', ← K.sees_shown, hunseen (hc ▸ Ne.symm hd)]
      · exact { h with phase := hc ▸ htarget }
  · by_cases hd : d.phase = target
    · refine agrees_of_eq (by rw [goTo_apply, if_neg hc]) (by rw [goTo_apply, if_pos hd]) ?_ ⟨rfl, ?_⟩
      · simp [K.sees_noted, hunseen (hd ▸ hc)]
      · exact { h with phase := hd ▸ htarget }
    · refine agrees_of_eq (by rw [goTo_apply, if_neg hc]) (by rw [goTo_apply, if_neg hd]) ?_ ⟨rfl, ?_⟩
      · simp only [List.filterMap_cons, K.sees_noted, K.sees_noted', K.sees_shown, List.filterMap_nil]
      · exact { h with phase := htarget }

theorem mirrors_showFault (message : String) :
    K.Mirrors Eq (showFault message : Drive I L P Unit) (showFault message : Drive I' L' P' Unit) := by
  refine .read_bind fun c d h => .ite (by rw [h.errorShown]) (.pure rfl) ?_
  exact .bind_eq (.update fun _ _ h' => { h' with errorShown := rfl }) fun _ => mirrors_announce _

theorem mirrors_halt {why why' : Halt} (h : why.Near K.faults why') :
    K.Mirrors (Outcome.Near K.faults) (halt why : Drive I L P Outcome) (halt why' : Drive I' L' P' Outcome) := by
  refine .bind_eq mirrors_disarm fun _ => .read_bind fun c d _ => ?_
  cases h with
  | completion =>
    exact .bind_eq (mirrors_note _ _) fun _ => .bind_eq (mirrors_goTo (K.phases_still rfl)) fun _ => .pure (.same _)
  | program message =>
    exact .bind_eq (mirrors_note _ _) fun _ => .bind_eq (mirrors_showFault _) fun _ =>
      .bind_eq (mirrors_goTo (K.phases_still rfl)) fun _ => .pure (.same _)
  | internal allowed =>
    exact .bind_eq (mirrors_note _ _) fun _ => .bind_eq (mirrors_goTo (K.phases_still rfl)) fun _ =>
      .pure (.internal allowed)

/-! ## Steps -/

theorem mirrors_block :
    K.Mirrors Eq (follow now .blocked : Drive I L P Unit) (follow now' .blocked : Drive I' L' P' Unit) :=
  .bind_eq (.update fun _ _ h => { h with timer := K.timers_stop h.timer }) fun _ => mirrors_goTo (K.phases_still rfl)

theorem mirrors_awaitInput (cell : Cell) :
    K.Mirrors Eq (awaitInput now cell : Drive I L P Unit) (awaitInput now' cell : Drive I' L' P' Unit) := by
  refine .read_bind fun c d h => .bind_eq (mirrors_note _ _) fun _ => ?_
  refine .bind_eq (.update fun _ _ h' => { h' with gate := rfl }) fun _ => ?_
  exact .bind_eq mirrors_block fun _ => mirrors_announce _

theorem mirrors_settleStep (events : StepBuffer) :
    K.Mirrors (Outcome.Near K.faults) (settleStep now events : Drive I L P Outcome)
      (settleStep now' events : Drive I' L' P' Outcome) := by
  unfold settleStep
  split
  · exact .bind_eq (mirrors_awaitInput _) fun _ => .pure (.same _)
  · exact .pure (.same _)

/-- the answers that are written down go together where the answers do -/
theorem near_answers {S S' : Type} {R : S → S' → Prop} {a : Option (Verdict × S)} {b : Option (Verdict × S')}
    (h : Option.Rel (fun a b => Verdict.Near K.faults a.1 b.1 ∧ R a.2 b.2) a b) :
    Option.Rel (Verdict.Near K.faults) (a.map (·.1)) (b.map (·.1)) := by
  cases h with
  | none => exact .none
  | some hab => exact .some hab.1

/-- **A step comes to the same on both sides**, whatever the phases and the instants. -/
theorem mirrors_executeStep :
    K.Mirrors (Outcome.Near K.faults) (executeStep now : Drive I L P Outcome) (executeStep now' : Drive I' L' P' Outcome) := by
  refine .read_bind fun c d h => ?_
  rcases h.live_cases with ⟨hc, hd⟩ | ⟨inst, inst', hc, hd, htwins⟩
  · rw [hc, hd]
    exact mirrors_halt (.internal (K.faults_refl _))
  · have hnext := K.together.next c.optimize htwins.machine
    simp only [hc, hd, ← h.optimize, ← h.buffer, ← K.together.hooks c.optimize htwins.machine]
    refine .bind_eq (mirrors_called htwins (.next _ _ (near_answers hnext))) fun _ => .bind_eq (mirrors_note _ _) fun _ => ?_
    refine .bind_eq (.update fun _ _ h' => { h' with buffer := rfl }) fun _ => ?_
    refine .bind (.demand hnext) fun ending ending' hending => .bind_eq (.update fun _ _ h' => ?_) fun _ => ?_
    · exact { h' with buffer := rfl, live := .some ⟨hending.2, htwins.serial⟩ }
    refine .bind_eq (mirrors_announceAll _) fun _ => ?_
    obtain ⟨verdict, machine⟩ := ending
    obtain ⟨verdict', machine'⟩ := ending'
    obtain ⟨hverdict, -⟩ := hending
    cases hverdict with
    | halt near => exact mirrors_halt near
    | proceed => exact mirrors_settleStep _

/-! ## Input -/

/-- **An input comes to the same on both sides**; the results are the same where phases are shown as they are. -/
theorem mirrors_supplyInput (hrunning : K.phases .running .running) (hnow : K.instants now now') (text : String) :
    K.Mirrors (fun result result' => (∀ {p q}, K.phases p q → p = q) → result = result')
      (supplyInput now text : Drive I L P (Except Error Unit))
      (supplyInput now' text : Drive I' L' P' (Except Error Unit)) := by
  refine .read_bind fun c d h => .ite (not_congr (h.phase_iff rfl)) ?_ ?_
  · refine .bind_eq (mirrors_note _ _) fun _ => .pure fun hplain => ?_
    rw [hplain h.phase]
  · rcases h.live_cases with ⟨hc, hd⟩ | ⟨inst, inst', hc, hd, htwins⟩
    · simp only [hc, hd]
      exact .pure fun _ => rfl
    · simp only [hc, hd, ← h.gate, Gate.supply]
      cases hg : c.gate.pending with
      | none => exact .bind_eq (.update fun _ _ h' => { h' with gate := rfl }) fun _ => .pure fun _ => rfl
      | some cell =>
        have hput := K.together.put cell text htwins.machine
        refine .bind_eq (.update fun _ _ h' => { h' with gate := rfl }) fun _ => ?_
        refine .bind_eq (mirrors_called htwins (.put _ _ (near_answers hput))) fun _ => ?_
        refine .bind (.demand hput) fun answer answer' hanswer => ?_
        refine .bind_eq (.update fun _ _ h' => { h' with live := .some ⟨hanswer.2, htwins.serial⟩ }) fun _ => ?_
        obtain ⟨verdict, machine⟩ := answer
        obtain ⟨verdict', machine'⟩ := answer'
        obtain ⟨hverdict, -⟩ := hanswer
        cases hverdict with
        | proceed =>
          exact .bind_eq (.bind_eq (mirrors_arm hnow) fun _ => mirrors_goTo hrunning) fun _ => .pure fun _ => rfl
        | halt near => exact .bind (mirrors_halt near) fun _ _ _ => .pure fun _ => rfl

/-! ## Ends and starts of sessions -/

/-- what a stop does where there is something to stop -/
def windUp (c : Controller I L P) : Drive I L P Unit := do
  disarm
  match c.live with
  | none => pure ()
  | some inst =>
    Action.update fun c => { c with live := none }
    let _ ← resetInstance inst
  note [.sessionStopped c.session]
  goTo (if c.phase = .faulted then .idle else .stopped)

omit [Loader L I] in
theorem stop_eq : (stop : Drive I L P Unit) = (do
    let c ← Action.read
    if c.phase = .idle ∨ c.phase = .stopped then ignore .stop else windUp c) := by
  unfold stop windUp
  refine bind_congr fun c => ?_
  cases hp : c.phase <;> cases c.live <;> simp

theorem mirrors_stop : K.Mirrors Eq (stop : Drive I L P Unit) (stop : Drive I' L' P' Unit) := by
  rw [stop_eq, stop_eq]
  refine .read_bind fun c d h => .ite (or_congr (h.phase_iff rfl) (h.phase_iff rfl)) (mirrors_ignore _) ?_
  have htarget : ∀ p : Phase,
      K.phases (if p = .faulted then .idle else .stopped) (if p = .faulted then .idle else .stopped) := by
    intro p
    split <;> exact K.phases_still rfl
  have hfaulted : c.phase = .faulted ↔ d.phase = .faulted := h.phase_iff rfl
  simp only [windUp, hfaulted]
  refine .bind_eq mirrors_disarm fun _ => ?_
  rcases h.live_cases with ⟨hc, hd⟩ | ⟨inst, inst', hc, hd, htwins⟩
  · rw [hc, hd]
    exact .bind_eq (mirrors_note _ _) fun _ => mirrors_goTo (htarget _)
  · rw [hc, hd]
    refine .bind_eq (.update fun _ _ h' => { h' with live := .none }) fun _ => ?_
    refine .bind (mirrors_resetInstance htwins) fun _ _ _ => ?_
    exact .bind_eq (mirrors_note _ _) fun _ => mirrors_goTo (htarget _)

theorem mirrors_begin {inst : Instance I} {inst' : Instance I'} (h : K.Twins inst inst') :
    K.Mirrors Eq (begin inst : Drive I L P Unit) (begin inst' : Drive I' L' P' Unit) := by
  refine .read_bind fun c d hcd => .ite (by rw [hcd.hasSession_eq]) (.bind_eq mirrors_stop fun _ => ?_) ?_
  -- the session starts in the same way whether another one was stopped for it or not
  all_goals
    refine .bind_eq mirrors_disarm fun _ => .bind (mirrors_resetInstance h) fun fresh fresh' hfresh => ?_
    refine .read_bind fun c d _ => .bind_eq (mirrors_note _ _) fun _ => ?_
    refine .bind_eq (.update fun _ _ h' => { h' with live := .some hfresh, errorShown := rfl }) fun _ => ?_
    exact mirrors_announce _

/-- the same answer of a check, with interpreters that go together -/
inductive Prepared (K : Mirror I L I' L' δ) : Except Error (Instance I) → Except Error (Instance I') → Prop where
  | error (e : Error) : Prepared K (.error e) (.error e)
  | ok {inst : Instance I} {inst' : Instance I'} (twins : K.Twins inst inst') : Prepared K (.ok inst) (.ok inst')

theorem mirrors_prepare : K.Mirrors (Prepared K) (prepare : Drive I L P (Except Error (Instance I)))
    (prepare : Drive I' L' P' (Except Error (Instance I'))) := by
  refine .read_bind fun c d h => ?_
  have htwins : K.Twins ⟨c.loads + 1, (Loader.load c.loader c.program).1⟩
      ⟨d.loads + 1, (Loader.load d.loader d.program).1⟩ := by
    rw [← h.program]
    exact ⟨K.together.built c.program h.loader, K.serials_succ h.loads⟩
  refine .bind_eq (.update fun c' d' h' => ?_) fun _ => .bind_eq (.write ?_) fun _ => ?_
  · refine { h' with loader := ?_, loads := K.serials_succ h'.loads }
    rw [← h.program]
    exact K.together.rest c.program h.loader
  · simp only [List.filterMap_cons, h.program, K.sees_loaded d.program htwins.serial, List.filterMap_nil]
  · dsimp only
    rw [← K.together.check htwins.machine]
    refine .bind_eq (mirrors_called htwins (.check _)) fun _ => .bind_eq (.demand (rel_same _)) fun answer => ?_
    cases answer with
    | accepted => exact .pure (.ok htwins)
    | rejected message =>
      exact .bind_eq (mirrors_note _ _) fun _ => .bind_eq (mirrors_announce _) fun _ => .pure (.error _)

/-- the first step of a session that has begun, with the pause after it -/
def takeFirstStep (now : Instant) : Drive I L P (Except Error Outcome) := do
  let outcome ← executeStep now
  let c ← Action.read
  if c.phase = .steppingOnce then goTo .paused
  pure (.ok outcome)

theorem firstStep_eq : (firstStep now : Drive I L P (Except Error Outcome)) = (prepare >>= fun prepared =>
    match prepared with
    | .error e => pure (.error e)
    | .ok inst => begin inst >>= fun _ => goTo .steppingOnce >>= fun _ => takeFirstStep now) := rfl

theorem run_eq : (run now : Drive I L P (Except Error Unit)) = (prepare >>= fun prepared =>
    match prepared with
    | .error e => pure (.error e)
    | .ok inst => begin inst >>= fun _ => arm now >>= fun _ => goTo .running >>= fun _ => pure (.ok ())) := rfl

/-! ## Operations -/

variable (hK : K.Plain)

include hK

theorem mirrors_pause : K.Mirrors Eq (pause : Drive I L P Unit) (pause : Drive I' L' P' Unit) := by
  refine .read_bind fun c d h => ?_
  rw [← hK.phases.1 h.phase]
  split
  · exact .bind_eq (.update fun _ _ h' => { h' with timer := K.timers_stop h'.timer }) fun _ => mirrors_goTo (hK.phases.2 rfl)
  · exact .pure rfl
  · exact mirrors_ignore _

theorem mirrors_resume : K.Mirrors Eq (resume now : Drive I L P Unit) (resume now : Drive I' L' P' Unit) := by
  refine .read_bind fun c d h => .ite (by rw [hK.phases.1 h.phase]) ?_ (mirrors_ignore _)
  exact .bind_eq (mirrors_arm (hK.instants now)) fun _ => mirrors_goTo (hK.phases.2 rfl)

omit [Presenter P] [Presenter P'] in
theorem mirrors_setDelay (millis : UInt64) :
    K.Mirrors Eq (setDelay now millis : Drive I L P (Except Error Unit))
      (setDelay now millis : Drive I' L' P' (Except Error Unit)) := by
  unfold setDelay
  cases Delay.ofMillis millis with
  | error e => exact .bind_eq (mirrors_note _ _) fun _ => .pure rfl
  | ok delay =>
    refine .bind_eq (.update fun _ _ h => ?_) fun _ => .read_bind fun _ _ _ => ?_
    · exact { h with timer := hK.setDelay now delay h.timer }
    · exact .bind_eq (mirrors_note _ _) fun _ => .pure rfl

/-- a step that is taken in some phase and ignored in the others -/
theorem mirrors_stepIn (p : Phase) {ignored : Drive I L P Unit} {ignored' : Drive I' L' P' Unit}
    (hignored : K.Mirrors Eq ignored ignored') {c : Controller I L P} {d : Controller I' L' P'} (h : K.Joins c d) :
    K.Mirrors (fun o o' => Reply.Near K.faults (.stepped o) (.stepped o'))
      (if c.phase = p then some <$> executeStep now else ignored >>= fun _ => pure none)
      (if d.phase = p then some <$> executeStep now else ignored' >>= fun _ => pure none) := by
  refine .ite (by rw [hK.phases.1 h.phase]) ?_ (.bind_eq hignored fun _ => .pure .ignored)
  exact mirrors_executeStep.map fun _ _ => .stepped

theorem mirrors_step : K.Mirrors (fun o o' => Reply.Near K.faults (.stepped o) (.stepped o'))
    (step now : Drive I L P (Option Outcome)) (step now : Drive I' L' P' (Option Outcome)) :=
  .read_bind fun _ _ h => mirrors_stepIn hK .paused (mirrors_ignore _) h

theorem mirrors_tick : K.Mirrors (fun o o' => Reply.Near K.faults (.stepped o) (.stepped o'))
    (tick now : Drive I L P (Option Outcome)) (tick now : Drive I' L' P' (Option Outcome)) :=
  .read_bind fun _ _ h => mirrors_stepIn hK .running (mirrors_note _ _) h

theorem mirrors_run :
    K.Mirrors Eq (run now : Drive I L P (Except Error Unit)) (run now : Drive I' L' P' (Except Error Unit)) := by
  rw [run_eq, run_eq]
  refine .bind mirrors_prepare fun prepared prepared' hprepared => ?_
  cases hprepared with
  | error e => exact .pure rfl
  | ok twins =>
    refine .bind_eq (mirrors_begin twins) fun _ => .bind_eq (mirrors_arm (hK.instants now)) fun _ => ?_
    exact .bind_eq (mirrors_goTo (hK.phases.2 rfl)) fun _ => .pure rfl

theorem mirrors_takeFirstStep : K.Mirrors (fun o o' => Reply.Near K.faults (.started o) (.started o'))
    (takeFirstStep now : Drive I L P (Except Error Outcome)) (takeFirstStep now : Drive I' L' P' (Except Error Outcome)) := by
  refine .bind mirrors_executeStep fun outcome outcome' hnear => .read_bind fun c d h => ?_
  refine .ite (by rw [hK.phases.1 h.phase]) ?_ (.pure (.started hnear))
  exact .bind_eq (mirrors_goTo (hK.phases.2 rfl)) fun _ => .pure (.started hnear)

theorem mirrors_firstStep : K.Mirrors (fun o o' => Reply.Near K.faults (.started o) (.started o'))
    (firstStep now : Drive I L P (Except Error Outcome)) (firstStep now : Drive I' L' P' (Except Error Outcome)) := by
  rw [firstStep_eq, firstStep_eq]
  refine .bind mirrors_prepare fun prepared prepared' hprepared => ?_
  cases hprepared with
  | error e => exact .pure (.refused e)
  | ok twins =>
    refine .bind_eq (mirrors_begin twins) fun _ => .bind_eq (mirrors_goTo (hK.phases.2 rfl)) fun _ => ?_
    exact mirrors_takeFirstStep hK

theorem mirrors_intent (intent : Intent) :
    K.Mirrors (Reply.Near K.faults) (perform now intent.operation : Drive I L P Reply)
      (perform now intent.operation : Drive I' L' P' Reply) := by
  have hresult : ∀ r r' : Except Error Unit, r = r' → Reply.Near K.faults (.result r) (.result r') := by
    rintro r _ rfl
    exact .result r
  cases intent with
  | load text => exact .bind_eq (.update fun _ _ h => { h with program := rfl }) fun _ => .pure .nothing
  | setOptimize on => exact .bind_eq (.update fun _ _ h => { h with optimize := rfl }) fun _ => .pure .nothing
  | run => exact (mirrors_run hK).map hresult
  | firstStep => exact (mirrors_firstStep hK).map fun _ _ h => h
  | step => exact (mirrors_step hK).map fun _ _ h => h
  | pause => exact .bind_eq (mirrors_pause hK) fun _ => .pure .nothing
  | resume => exact .bind_eq (mirrors_resume hK) fun _ => .pure .nothing
  | stop => exact .bind_eq mirrors_stop fun _ => .pure .nothing
  | supplyInput text =>
    exact (mirrors_supplyInput (hK.phases.2 rfl) (hK.instants now) text).map fun r r' h => hresult r r' (h hK.phases.1)
  | setDelay millis => exact (mirrors_setDelay hK millis).map hresult

theorem mirrors_dispatch (intent : Intent) :
    K.Mirrors Eq (dispatch now intent : Drive I L P (Except Error Unit))
      (dispatch now intent : Drive I' L' P' (Except Error Unit)) := by
  rw [dispatch_eq, dispatch_eq]
  refine .read_bind fun _ _ _ => .bind_eq (mirrors_note _ _) fun _ => ?_
  exact (mirrors_intent hK intent).map fun _ _ h => h.toResult

/-- **An operation does the same on controllers that are joined**, as far as it is seen, and leaves them joined. -/
theorem mirrors_perform (op : Operation) :
    K.Mirrors (Reply.Near K.faults) (perform now op : Drive I L P Reply) (perform now op : Drive I' L' P' Reply) := by
  rcases op.kinds with rfl | ⟨intent, rfl⟩ | ⟨intent, rfl⟩
  · exact (mirrors_tick hK).map fun _ _ h => h
  · exact mirrors_intent hK intent
  · refine (mirrors_dispatch hK intent).map ?_
    rintro r _ rfl
    exact .result r

/-- runs of controllers that are joined give replies that go together -/
theorem mirrors_performAll (ops : List (Instant × Operation)) :
    K.Mirrors (List.Forall₂ (Reply.Near K.faults)) (performAll ops : Drive I L P (List Reply))
      (performAll ops : Drive I' L' P' (List Reply)) := by
  induction ops with
  | nil => exact .pure .nil
  | cons op ops ih =>
    exact .bind (mirrors_perform hK op.2) fun _ _ h => .bind ih fun _ _ hrest => .pure (.cons h hrest)

end Controller

end StepControl

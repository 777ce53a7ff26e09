/-
The presenter's account of an execution.

What a presenter hears is well formed (`Account`): it hears of a phase only from a phase that leads there, a session that
starts clears the displays first, a session that waits names the cell that it waits for, and output comes while the
interpreter may be stepped. An account is a list of announcements between two phases, with the cell that waits for input at
either end, so that accounts can be put one after the other (`Account.append`).

From moves to runs:
- `Controller.Move.account`: each move of a steady controller adds an account, from the phase before to the phase after it.
- `Controller.Told.move`: so what was announced since the controller was made stays one account, and the presenter is what
  came of hearing it.

Results:
- `Account.isChain` / `Account.lastPhase_eq`: the phases announced follow one from the other along `Phase.successors`, and
  the last is the one that the account ends in.
- `Account.placed`: every announcement has its place, by what was announced right before it and what comes right after it
  (`Placed`).
- `Controller.performAll_faithful`: these hold of all that was announced since a controller was made, and its presenter
  heard just this, in this order.
- `Controller.performAll_faithful_restarted`: the account that a channel holds after a restart and a fault.

Premises: the interpreter never breaks down (`SoundInterpreter`). Loader, presenter, operations and instants are arbitrary.
-/
import Mathlib.Data.List.Chain
import StepControl.Proofs.Runs

namespace StepControl

/-- the phases that can be announced next -/
def Phase.successors : Phase → List Phase
  | .idle | .stopped => [.running, .steppingOnce]
  | .faulted => [.idle, .running, .steppingOnce]
  | .steppingOnce => [.paused, .awaitingInput, .stopped, .faulted]
  | .running => [.paused, .awaitingInput, .stopped, .faulted]
  | .paused => [.running, .awaitingInput, .stopped, .faulted]
  | .awaitingInput => [.running, .stopped, .faulted]

/-- a phase that a session can start in -/
def Phase.isOpening : Phase → Bool
  | .running | .steppingOnce => true
  | _ => false

theorem Phase.mem_successors_of_isOpening {p q : Phase} (hp : p.hasSession = false) (hq : q.isOpening = true) :
    q ∈ p.successors := by
  revert hp hq
  cases p <;> cases q <;> decide

namespace Notice

def phase? : Notice → Option Phase
  | .phaseChanged phase => some phase
  | _ => none

/-- news of a step: output, or a move of the instruction pointer -/
def isProgress : Notice → Bool
  | .output _ | .instructionMoved _ => true
  | _ => false

end Notice

def announced (ns : List Notice) : List Phase := ns.filterMap Notice.phase?

@[simp] theorem announced_nil : announced [] = [] := rfl

theorem announced_cons (n : Notice) (ns : List Notice) :
    announced (n :: ns) = n.phase?.toList ++ announced ns := by
  cases h : n.phase? <;> simp [announced, h]

def lastPhase (p : Phase) (ns : List Notice) : Phase := (announced ns).getLast?.getD p

@[simp] theorem lastPhase_nil (p : Phase) : lastPhase p [] = p := rfl

theorem lastPhase_cons (p : Phase) (n : Notice) (ns : List Notice) :
    lastPhase p (n :: ns) = lastPhase (n.phase?.getD p) ns := by
  unfold lastPhase
  rw [announced_cons]
  cases n.phase? with
  | none => simp
  | some q => simp [List.getLast?_cons]

/-! ## Well-formed accounts -/

/-- an account that starts in phase `p`, where `asked` waits for input, and ends in phase `q`, where `asked'` does -/
inductive Account : Phase → Option Cell → List Notice → Phase → Option Cell → Prop where
  | nil (p : Phase) (asked : Option Cell) : Account p asked [] p asked
  | start {p q r : Phase} {asked asked' : Option Cell} {ns : List Notice} (vacant : p.hasSession = false)
      (opening : q.isOpening = true) (rest : Account q none ns r asked') :
      Account p asked (.reset :: .phaseChanged q :: ns) r asked'
  | suspend {p r : Phase} {asked asked' : Option Cell} {cell : Cell} {ns : List Notice}
      (edge : .awaitingInput ∈ p.successors) (rest : Account .awaitingInput (some cell) ns r asked') :
      Account p asked (.phaseChanged .awaitingInput :: .inputRequested cell :: ns) r asked'
  | change {p q r : Phase} {asked asked' : Option Cell} {ns : List Notice} (edge : q ∈ p.successors)
      (within : q.isOpening = true → p.hasSession = true) (going : q ≠ .awaitingInput)
      (rest : Account q none ns r asked') : Account p asked (.phaseChanged q :: ns) r asked'
  | progress {p r : Phase} {asked asked' : Option Cell} {n : Notice} {ns : List Notice} (step : p.canStep = true)
      (news : n.isProgress = true) (rest : Account p asked ns r asked') : Account p asked (n :: ns) r asked'
  | error {p r : Phase} {asked asked' : Option Cell} {ns : List Notice} (message : String)
      (rest : Account p asked ns r asked') : Account p asked (.error message :: ns) r asked'

theorem Notice.phase?_of_isProgress {n : Notice} (h : n.isProgress = true) : n.phase? = none := by
  cases n <;> simp_all [isProgress, phase?]

namespace Account

variable {p q r : Phase} {asked asked' asked'' : Option Cell} {ns ms : List Notice}

theorem append (h : Account p asked ns q asked') (h' : Account q asked' ms r asked'') :
    Account p asked (ns ++ ms) r asked'' := by
  induction h with
  | nil p asked => exact h'
  | start vacant opening rest ih => exact .start vacant opening (ih h')
  | suspend edge rest ih => exact .suspend edge (ih h')
  | change edge within going rest ih => exact .change edge within going (ih h')
  | progress step news rest ih => exact .progress step news (ih h')
  | error message rest ih => exact .error message (ih h')

/-- news of a step leaves the phase as it is -/
theorem of_progress (hp : p.canStep = true) (h : ∀ n ∈ ns, n.isProgress = true) : Account p asked ns p asked := by
  induction ns with
  | nil => exact .nil p asked
  | cons n ns ih =>
    have hn : n.isProgress = true := h n List.mem_cons_self
    exact .progress hp hn (ih fun m hm => h m (List.mem_cons_of_mem _ hm))

/-- the last announcement of a phase tells the phase -/
theorem lastPhase_eq (h : Account p asked ns q asked') : lastPhase p ns = q := by
  induction h with
  | nil p asked => rfl
  | start vacant opening rest ih => rw [lastPhase_cons, lastPhase_cons]; exact ih
  | suspend edge rest ih => rw [lastPhase_cons, lastPhase_cons]; exact ih
  | change edge within going rest ih => rw [lastPhase_cons]; exact ih
  | progress step news rest ih => rw [lastPhase_cons, Notice.phase?_of_isProgress news]; exact ih
  | error message rest ih => rw [lastPhase_cons]; exact ih

/-- announced phases follow from one another -/
theorem isChain (h : Account p asked ns q asked') :
    List.IsChain (fun p q => q ∈ p.successors) (p :: announced ns) := by
  induction h with
  | nil p asked => exact List.isChain_singleton p
  | start vacant opening rest ih =>
    exact List.isChain_cons_cons.2 ⟨Phase.mem_successors_of_isOpening vacant opening, ih⟩
  | suspend edge rest ih => exact List.isChain_cons_cons.2 ⟨edge, ih⟩
  | change edge within going rest ih => exact List.isChain_cons_cons.2 ⟨edge, ih⟩
  | progress step news rest ih => rwa [announced_cons, Notice.phase?_of_isProgress news]
  | error message rest ih => exact ih

end Account

/-! ## The place of an announcement -/

/-- where an announcement may stand: `before` was announced since phase `p`, and `after` comes next -/
def Placed (p : Phase) (before : List Notice) : Notice → List Notice → Prop
  | .reset, after =>
    (lastPhase p before).hasSession = false ∧
      ∃ target rest, target.isOpening = true ∧ after = .phaseChanged target :: rest
  | .phaseChanged target, after =>
    (target.isOpening = true → (lastPhase p before).hasSession = false → ∃ earlier, before = earlier ++ [.reset]) ∧
      (target = .awaitingInput → ∃ cell rest, after = .inputRequested cell :: rest)
  | .inputRequested _, _ => ∃ earlier, before = earlier ++ [.phaseChanged .awaitingInput]
  | .output _, _ => (lastPhase p before).canStep = true
  | .instructionMoved _, _ => (lastPhase p before).canStep = true
  | .error _, _ => True

variable {p q : Phase} {asked asked' : Option Cell} {ns before after : List Notice} {n : Notice}

/-- what is announced earlier does not move an announcement from its place -/
theorem Placed.prepend (m : Notice) (h : Placed (m.phase?.getD p) before n after) : Placed p (m :: before) n after := by
  have hlast : lastPhase (m.phase?.getD p) before = lastPhase p (m :: before) := (lastPhase_cons p m before).symm
  cases n with
  | reset =>
    obtain ⟨hvacant, hnext⟩ := h
    rw [hlast] at hvacant
    exact ⟨hvacant, hnext⟩
  | phaseChanged target =>
    obtain ⟨hstart, hask⟩ := h
    refine ⟨?_, hask⟩
    intro ho hv
    rw [← hlast] at hv
    obtain ⟨earlier, he⟩ := hstart ho hv
    exact ⟨m :: earlier, by rw [he]; rfl⟩
  | inputRequested cell =>
    obtain ⟨earlier, he⟩ := h
    exact ⟨m :: earlier, by rw [he]; rfl⟩
  | output byte =>
    rw [Placed, ← hlast]
    exact h
  | instructionMoved index =>
    rw [Placed, ← hlast]
    exact h
  | error message => trivial

/-- news of a step stand where the interpreter may be stepped -/
theorem placed_of_isProgress (hp : p.canStep = true) (hn : n.isProgress = true) : Placed p [] n after := by
  cases n <;> simp_all [Notice.isProgress, Placed]

/-- every announcement of an account has its place -/
theorem Account.placed (h : Account p asked ns q asked') (hns : ns = before ++ n :: after) : Placed p before n after := by
  induction h generalizing before with
  | nil p asked => simp at hns
  | start vacant opening rest ih =>
    rcases before with _ | ⟨m, _ | ⟨m', before⟩⟩
    all_goals simp only [List.nil_append, List.cons_append, List.cons.injEq] at hns
    · obtain ⟨rfl, rfl⟩ := hns
      exact ⟨vacant, _, _, opening, rfl⟩
    · obtain ⟨rfl, rfl, rfl⟩ := hns
      refine ⟨fun _ _ => ⟨[], rfl⟩, ?_⟩
      rintro rfl
      exact absurd opening (by decide)
    · obtain ⟨rfl, rfl, hns⟩ := hns
      exact ((ih hns).prepend (.phaseChanged _)).prepend .reset
  | suspend edge rest ih =>
    rcases before with _ | ⟨m, _ | ⟨m', before⟩⟩
    all_goals simp only [List.nil_append, List.cons_append, List.cons.injEq] at hns
    · obtain ⟨rfl, rfl⟩ := hns
      exact ⟨fun ho => absurd ho (by decide), fun _ => ⟨_, _, rfl⟩⟩
    · obtain ⟨rfl, rfl, rfl⟩ := hns
      exact ⟨[], rfl⟩
    · obtain ⟨rfl, rfl, hns⟩ := hns
      exact ((ih hns).prepend (.inputRequested _)).prepend (.phaseChanged _)
  | change edge within going rest ih =>
    rcases before with _ | ⟨m, before⟩
    all_goals simp only [List.nil_append, List.cons_append, List.cons.injEq] at hns
    · obtain ⟨rfl, rfl⟩ := hns
      refine ⟨?_, fun ha => absurd ha going⟩
      intro ho hv
      rw [lastPhase_nil, within ho] at hv
      exact absurd hv (by decide)
    · obtain ⟨rfl, hns⟩ := hns
      exact (ih hns).prepend (.phaseChanged _)
  | progress step news rest ih =>
    rcases before with _ | ⟨m, before⟩
    all_goals simp only [List.nil_append, List.cons_append, List.cons.injEq] at hns
    · obtain ⟨rfl, rfl⟩ := hns
      exact placed_of_isProgress step news
    · obtain ⟨rfl, hns⟩ := hns
      refine Placed.prepend _ ?_
      rw [Notice.phase?_of_isProgress news]
      exact ih hns
  | error message rest ih =>
    rcases before with _ | ⟨m, before⟩
    all_goals simp only [List.nil_append, List.cons_append, List.cons.injEq] at hns
    · obtain ⟨rfl, rfl⟩ := hns
      trivial
    · obtain ⟨rfl, hns⟩ := hns
      exact (ih hns).prepend (.error _)

/-- an account that ends where input is waited for says which cell waits, unless it says nothing of phases -/
theorem Account.waiting (h : Account p asked ns q asked') (hq : q = .awaitingInput) :
    (announced ns = [] ∧ asked' = asked) ∨
      ∃ before cell after, ns = before ++ .phaseChanged .awaitingInput :: .inputRequested cell :: after ∧
        announced after = [] ∧ asked' = some cell := by
  induction h with
  | nil p asked => exact Or.inl ⟨rfl, rfl⟩
  | start vacant opening rest ih =>
    rcases ih hq with ⟨hnone, -⟩ | ⟨before, cell, after, rfl, hafter, hcell⟩
    · have hlast := rest.lastPhase_eq
      rw [lastPhase, hnone] at hlast
      simp only [List.getLast?_nil, Option.getD_none] at hlast
      rw [hlast, hq] at opening
      exact absurd opening (by decide)
    · exact Or.inr ⟨.reset :: .phaseChanged _ :: before, cell, after, rfl, hafter, hcell⟩
  | @suspend p r asked asked' cell ns edge rest ih =>
    rcases ih hq with ⟨hnone, hcell⟩ | ⟨before, cell', after, rfl, hafter, hcell⟩
    · exact Or.inr ⟨[], cell, ns, rfl, hnone, hcell⟩
    · exact Or.inr ⟨.phaseChanged _ :: .inputRequested _ :: before, cell', after, rfl, hafter, hcell⟩
  | change edge within going rest ih =>
    rcases ih hq with ⟨hnone, -⟩ | ⟨before, cell, after, rfl, hafter, hcell⟩
    · have hlast := rest.lastPhase_eq
      rw [lastPhase, hnone] at hlast
      exact absurd (hlast.trans hq) going
    · exact Or.inr ⟨.phaseChanged _ :: before, cell, after, rfl, hafter, hcell⟩
  | @progress p r asked asked' n ns step news rest ih =>
    rcases ih hq with ⟨hnone, hcell⟩ | ⟨before, cell, after, rfl, hafter, hcell⟩
    · refine Or.inl ⟨?_, hcell⟩
      rw [announced_cons, Notice.phase?_of_isProgress news]
      exact hnone
    · exact Or.inr ⟨n :: before, cell, after, rfl, hafter, hcell⟩
  | error message rest ih =>
    rcases ih hq with ⟨hnone, hcell⟩ | ⟨before, cell, after, rfl, hafter, hcell⟩
    · exact Or.inl ⟨hnone, hcell⟩
    · exact Or.inr ⟨.error message :: before, cell, after, rfl, hafter, hcell⟩

/-! ## The account of a run -/

theorem Phase.mem_successors_of_hasSession {p : Phase} (hp : p.hasSession = true) :
    .stopped ∈ p.successors ∧ .faulted ∈ p.successors := by
  revert hp
  cases p <;> decide

namespace Controller

variable {I L P : Type} {c d : Controller I L P} {j : List (Entry I)}

/-- a controller and all that was announced since it was made -/
structure Faithful (ns : List Notice) (c : Controller I L P) : Prop where
  current : lastPhase .idle ns = c.phase
  edges : List.IsChain (fun p q => q ∈ p.successors) (.idle :: announced ns)
  placed : ∀ before n after, ns = before ++ n :: after → Placed .idle before n after
  waiting : c.phase = .awaitingInput → ∃ before cell after,
    ns = before ++ .phaseChanged .awaitingInput :: .inputRequested cell :: after ∧ announced after = [] ∧
      c.pending = some cell

theorem faithful_of_account {ns : List Notice} (h : Account .idle none ns c.phase c.pending) : Faithful ns c where
  current := h.lastPhase_eq
  edges := h.isChain
  placed _ _ _ hns := h.placed hns
  waiting hp := by
    rcases h.waiting hp with ⟨hnone, -⟩ | hcell
    · have hlast := h.lastPhase_eq
      rw [lastPhase, hnone, hp] at hlast
      exact absurd hlast (by decide)
    · exact hcell

/-- `c` and its presenter after `past`, where `presenter` was the presenter to begin with -/
structure Told [Presenter P] (presenter : P) (past : List (Entry I)) (c : Controller I L P) : Prop where
  heard : c.presenter = (notices past).foldl Presenter.accept presenter
  account : Account .idle none (notices past) c.phase c.pending

theorem account_farewell (hp : c.phase.hasSession = true) (asked : Option Cell) (why : Halt) :
    Account c.phase asked (notices (c.farewell why)) why.phase none := by
  obtain ⟨hstop, hfault⟩ := Phase.mem_successors_of_hasSession hp
  rcases why with _ | ⟨message⟩ | ⟨message⟩
  · exact .change hstop (fun _ => hp) (by decide) (.nil _ _)
  · exact .error message (.change hfault (fun _ => hp) (by decide) (.nil _ _))
  · exact .change hfault (fun _ => hp) (by decide) (.nil _ _)

/-- what a step reports is news -/
theorem account_stepEntries (hp : c.phase.canStep = true) (asked : Option Cell) (inst : Instance I) (hooks : List Hook)
    (verdict : Verdict) : Account c.phase asked (notices (c.stepEntries inst hooks verdict)) c.phase asked := by
  rw [notices_stepEntries]
  refine .of_progress hp ?_
  intro n hn
  obtain ⟨hook, -, hhook⟩ := List.mem_filterMap.1 hn
  cases hook <;> simp [progress?] at hhook <;> simp [← hhook, Notice.isProgress]

variable [Interpreter I]

theorem Cleared.account (h : Cleared c j d) : ∃ asked, Account c.phase c.pending (notices j) d.phase asked := by
  cases h with
  | empty vacant => exact ⟨c.pending, .nil _ _⟩
  | stopped busy live reset =>
    exact ⟨none, .change (Phase.mem_successors_of_hasSession busy).1 (fun _ => busy) (by decide) (.nil _ _)⟩

variable [Loader L I] {now : Instant} {given : Option String}

/-- **Every move adds to the account.** -/
theorem Move.account (h : Steady c) (hm : Move now given c j d) :
    Account c.phase c.pending (notices j) d.phase d.pending := by
  cases hm with
  | remark note isRemark => exact .nil _ _
  | load text => exact .nil _ _
  | setOptimize on => exact .nil _ _
  | setDelay delay => exact .nil _ _
  | refuse check => exact .error _ (.nil _ _)
  | @start d j machine target check cleared reset kind =>
    have ho : target.isOpening = true := by obtain rfl | rfl := kind <;> rfl
    have hnotices : notices (c.startEntries d j target) = notices j ++ [.reset, .phaseChanged target] := by
      simp [startEntries, loadEntries, greeting, beginning, change]
    obtain ⟨asked, hcleared⟩ := cleared.account
    rw [hnotices]
    exact hcleared.append (.start (cleared.steady h.loaded).2 ho (.nil _ _))
  | proceed phase live next silent => exact account_stepEntries phase _ _ _ _
  | @ask inst hooks machine cell phase live next asked =>
    have hedge : Phase.awaitingInput ∈ c.phase.successors := by
      revert phase
      cases c.phase <;> decide
    rw [notices_append]
    exact (account_stepEntries phase _ _ _ _).append (.suspend hedge (.nil _ _))
  | @halt inst hooks machine why phase live next =>
    rw [notices_append]
    exact (account_stepEntries phase _ _ _ _).append
      (account_farewell (Phase.hasSession_of_canStep phase) _ why)
  | supply phase hand pending live put =>
    rw [phase]
    exact .change (by decide) (fun _ => rfl) (by decide) (.nil _ _)
  | @supplyHalt inst machine cell text why phase hand pending live put =>
    exact account_farewell (by rw [phase]; rfl) _ why
  | pause phase =>
    have hnone : c.pending = none := by
      rw [Controller.pending, h.gate_eq (by rintro hp; simp [hp] at phase)]
    have hedge : Phase.paused ∈ c.phase.successors := by obtain hp | hp := phase <;> rw [hp] <;> decide
    show Account c.phase c.pending [.phaseChanged .paused] .paused c.pending
    rw [hnone]
    exact .change hedge (fun ho => absurd ho (by decide)) (by decide) (.nil _ _)
  | resume phase =>
    rw [phase]
    exact .change (by decide) (fun _ => rfl) (by decide) (.nil _ _)
  | stop busy cleared =>
    cases cleared with
    | empty vacant => exact .nil _ _
    | stopped busy live reset =>
      exact .change (Phase.mem_successors_of_hasSession busy).1 (fun _ => busy) (by decide) (.nil _ _)
  | rearm phase live reset =>
    rw [phase]
    exact .change (by decide) (by decide) (by decide) (.nil _ _)

/-- moves leave it to the presenter to hear of them -/
theorem Move.presenter_eq (hm : Move now given c j d) : d.presenter = c.presenter := by
  cases hm with
  | start check cleared reset kind => cases cleared <;> rfl
  | stop busy cleared => cases cleared <;> rfl
  | _ => rfl

theorem Told.move [Presenter P] {presenter : P} {past : List (Entry I)} (ht : Told presenter past c) (h : Steady c)
    (hm : Move now given c j d) : Told presenter (past ++ j) (d.hear j) where
  heard := by
    rw [notices_append, List.foldl_append, ← ht.heard, ← hm.presenter_eq]
    rfl
  account := by
    have hnext : Account c.phase c.pending (notices j) d.phase d.pending := hm.account h
    rw [notices_append]
    exact ht.account.append hnext

/-- **The presenter's account is faithful.** Any operations on a new controller return one after the other; the presenter
has then heard exactly what the journal says was announced, in that order, and it is a faithful account of the controller
they leave. -/
theorem performAll_faithful [Presenter P] [SoundInterpreter I] (config : Config) (loader : L) (presenter : P)
    (ops : List (Instant × Operation)) :
    (performAll ops : Drive I L P (List Reply)).Gives (ofConfig config loader presenter) fun replies d j =>
      replies.length = ops.length ∧ d.presenter = (notices j).foldl Presenter.accept presenter ∧
        Faithful (notices j) d := by
  have hrun := performAll_invariant (Q := Told presenter) (fun _ _ _ _ _ _ hc ht hm => ht.move hc hm)
    (steady_ofConfig config loader presenter) (by simp [ofConfig]) [] ⟨rfl, .nil _ _⟩ ops
  refine hrun.imp ?_
  intro replies d j hkept
  obtain ⟨hlen, -, -, ht⟩ := hkept
  exact ⟨hlen, ht.heard, faithful_of_account ht.account⟩

/-- a restart over a session that waits, and a second program that faults: the front end's channel holds the account -/
theorem performAll_faithful_restarted :
    let asking : Recital := { steps := [([.output 65, .requestInput ⟨3⟩], .proceed)] }
    let faulty : Recital := { steps := [([.instruction 7], .halt (.fault (.program "tape end")))] }
    let ops : List (Instant × Operation) := [(0, .run), (1, .tick), (2, .firstStep)]
    let config : Config := {}
    (performAll ops : Drive Recital (List Recital) Channel (List Reply)).Gives
      (ofConfig config [asking, faulty] {}) fun replies d j =>
        (replies.length = ops.length ∧ d.presenter = (notices j).foldl Presenter.accept {} ∧ Faithful (notices j) d) ∧
          d.presenter.queue =
            [.reset, .stateChanged .running, .output 65, .stateChanged .awaitingInput, .inputRequested ⟨3⟩,
              .stateChanged .stopped, .reset, .stateChanged .steppingOnce, .instructionPointerMoved 7, .error "tape end",
              .stateChanged .faulted] := by
  intro asking faulty ops config
  obtain ⟨replies, hv, hrest⟩ := performAll_faithful config [asking, faulty] ({} : Channel) ops
  exact ⟨replies, hv, hrest, by decide⟩

end Controller

end StepControl

/-
Runs of a controller: operations carried out one after the other, each at its instant.

`performAll_invariant` is the one induction over runs. It takes a property of the past and the present that every move of a
steady controller keeps, and says of every run of an interpreter that never breaks down:
- it returns, with a reply to each of its operations;
- it leaves a steady controller behind that is not in the middle of a first step;
- it keeps the property, where the past is all that was written since.
`Moves.invariant` is the same for moves one after the other, and what the presenter hears of them does not matter for it.

The first operations of a run are a run themselves, so what holds at the end of every run holds after each of its
operations, and no result needs to speak of what is in between.

`Recital` is an interpreter for witnesses: it answers its calls as it was told to, and well when there is nothing left to
answer. A list of recitals is a loader that gives one after the other, whatever the text.

Premises: the interpreter never breaks down (`SoundInterpreter`). Runs that break down are followed in `Breakdowns` and
`Complaints`, and those of controllers with a history in `Histories`.
-/
import StepControl.Proofs.Performing

namespace StepControl

/-! ## An interpreter that never breaks down -/

/-- an interpreter that answers its calls as it was told to, and well when there is nothing left to answer -/
structure Recital where
  answer : Check := .accepted
  steps : List (List Hook × Verdict) := []
  puts : List Verdict := []
  deriving DecidableEq, Repr

namespace Recital

instance : Interpreter Recital where
  check r := some r.answer
  next r _ :=
    match r.steps with
    | [] => ⟨[], some (.proceed, r)⟩
    | step :: rest => ⟨step.1, some (step.2, { r with steps := rest })⟩
  put r _ _ :=
    match r.puts with
    | [] => some (.proceed, r)
    | verdict :: rest => some (verdict, { r with puts := rest })
  reset r := some r

instance : SoundInterpreter Recital where
  check_isSome _ := rfl
  next_isSome r _ := by
    rcases r with ⟨_, _ | _, _⟩ <;> rfl
  put_isSome r _ _ := by
    rcases r with ⟨_, _, _ | _⟩ <;> rfl
  reset_isSome _ := rfl

/-- one recital after the other, whatever the program text -/
instance : Loader (List Recital) Recital where
  load
    | [], _ => ({}, [])
    | r :: rest, _ => (r, rest)

end Recital

namespace Controller

open StepControl.Action

variable {I L P : Type}

theorem steady_ofConfig (config : Config) (loader : L) (presenter : P) :
    Steady (ofConfig config loader presenter : Controller I L P) := by
  refine ⟨?_, ?_, ?_, fun _ => rfl, rfl, fun _ => rfl, fun _ => rfl⟩
  all_goals simp [ofConfig, Timer.isActive, Controller.pending, Phase.hasSession]

variable [Interpreter I] [Loader L I] [Presenter P]

def performAll : List (Instant × Operation) → Drive I L P (List Reply)
  | [] => pure []
  | (now, op) :: rest => do
    let reply ← perform now op
    let replies ← performAll rest
    pure (reply :: replies)

variable {c : Controller I L P}

/-- a run goes on where its first operation returns -/
theorem performAll_cons_apply {now : Instant} {op : Operation} {reply : Reply} (ops : List (Instant × Operation))
    (h : ((perform now op : Drive I L P Reply) c).value = some reply) :
    (performAll ((now, op) :: ops) : Drive I L P (List Reply)) c =
      ⟨((performAll ops : Drive I L P (List Reply)) ((perform now op : Drive I L P Reply) c).state).value.map (reply :: ·),
        ((performAll ops : Drive I L P (List Reply)) ((perform now op : Drive I L P Reply) c).state).state,
        ((perform now op : Drive I L P Reply) c).journal ++
          ((performAll ops : Drive I L P (List Reply)) ((perform now op : Drive I L P Reply) c).state).journal⟩ := by
  have hcons : (performAll ((now, op) :: ops) : Drive I L P (List Reply)) =
      perform now op >>= fun reply => (reply :: ·) <$> performAll ops := by
    simp [performAll]
  rw [hcons, bind_apply_some h, map_apply]

/-- and is over where that breaks down -/
theorem performAll_cons_broken {now : Instant} {op : Operation} (ops : List (Instant × Operation))
    (h : ((perform now op : Drive I L P Reply) c).value = none) :
    (performAll ((now, op) :: ops) : Drive I L P (List Reply)) c =
      ⟨none, ((perform now op : Drive I L P Reply) c).state, ((perform now op : Drive I L P Reply) c).journal⟩ :=
  bind_apply_none h _

/-- what every move keeps of the past and the present, a sequence of moves keeps -/
theorem Moves.invariant {now : Instant} {given : Option String} {d : Controller I L P} {j past : List (Entry I)}
    {Q : List (Entry I) → Controller I L P → Prop}
    (hmove : ∀ past c j d, Steady c → Q past c → Move now given c j d → Q (past ++ j) (d.hear j))
    (h : Steady c) (hQ : Q past c) (hm : Moves now given c j d) : Q (past ++ j) d := by
  induction hm generalizing past with
  | refl => simpa using hQ
  | step first _ ih =>
    rw [← List.append_assoc]
    exact ih ((first.steady h).hear _) (hmove past _ _ _ h hQ first)

variable [SoundInterpreter I]

/-- **Runs keep what moves keep.** A run from a steady controller returns a reply to each of its operations, leaves a
steady controller behind that is not in the middle of a first step, and keeps what every move keeps. -/
theorem performAll_invariant {Q : List (Entry I) → Controller I L P → Prop}
    (hmove : ∀ now given past c j d, Steady c → Q past c → Move now given c j d → Q (past ++ j) (d.hear j))
    (h : Steady c) (hq : c.phase ≠ .steppingOnce) (past : List (Entry I)) (hQ : Q past c)
    (ops : List (Instant × Operation)) :
    (performAll ops : Drive I L P (List Reply)).Gives c fun replies d j =>
      replies.length = ops.length ∧ Steady d ∧ d.phase ≠ .steppingOnce ∧ Q (past ++ j) d := by
  induction ops generalizing c past with
  | nil => simpa [performAll] using ⟨h, hq, hQ⟩
  | cons op rest ih =>
    simp only [performAll, gives_bind, gives_pure]
    refine (perform_moves h hq op.2).imp ?_
    intro reply d j hm
    have hd := Moves.invariant (hmove op.1 op.2.input?) h hQ hm.1
    refine (ih (hm.1.steady h) hm.2 (past ++ j) hd).imp ?_
    intro replies e k hk
    obtain ⟨hlen, he, heq, hQe⟩ := hk
    exact ⟨by simp [hlen], he, heq, by simpa using hQe⟩

end Controller

end StepControl

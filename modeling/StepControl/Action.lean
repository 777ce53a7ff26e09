/-
Actions: computations that change a state, write a journal and may break down.

When an action breaks down there is no value, and the state and the journal are those of the moment it broke down. Writing
actions one after the other appends their journals (`bind_apply_some`), and nothing follows a breakdown
(`bind_apply_none`).
-/

namespace StepControl

/-- the end of an action -/
structure Turn (σ ε α : Type) where
  /-- missing when the action broke down -/
  value : Option α
  state : σ
  /-- what was written, oldest first -/
  journal : List ε

/-- a computation on a state `σ` that writes entries `ε` and gives an `α` -/
def Action (σ ε α : Type) : Type := σ → Turn σ ε α

namespace Action

variable {σ ε α β : Type}

protected def pure (a : α) : Action σ ε α := fun s => ⟨some a, s, []⟩

protected def bind (m : Action σ ε α) (f : α → Action σ ε β) : Action σ ε β := fun s =>
  let first := m s
  match first.value with
  | none => ⟨none, first.state, first.journal⟩
  | some a =>
    let second := f a first.state
    ⟨second.value, second.state, first.journal ++ second.journal⟩

instance : Monad (Action σ ε) where
  pure := Action.pure
  bind := Action.bind

/-- the present state -/
def read : Action σ ε σ := fun s => ⟨some s, s, []⟩

/-- change the state -/
def update (f : σ → σ) : Action σ ε Unit := fun s => ⟨some (), f s, []⟩

/-- write entries, oldest first -/
def write (es : List ε) : Action σ ε Unit := fun s => ⟨some (), s, es⟩

/-- the value, or a breakdown where it is missing -/
def demand (a : Option α) : Action σ ε α := fun s => ⟨a, s, []⟩

@[simp] theorem pure_apply (a : α) (s : σ) : (pure a : Action σ ε α) s = ⟨some a, s, []⟩ := rfl

@[simp] theorem read_apply (s : σ) : (read : Action σ ε σ) s = ⟨some s, s, []⟩ := rfl

@[simp] theorem update_apply (f : σ → σ) (s : σ) : (update f : Action σ ε Unit) s = ⟨some (), f s, []⟩ := rfl

@[simp] theorem write_apply (es : List ε) (s : σ) : (write es : Action σ ε Unit) s = ⟨some (), s, es⟩ := rfl

@[simp] theorem demand_apply (a : Option α) (s : σ) : (demand a : Action σ ε α) s = ⟨a, s, []⟩ := rfl

theorem bind_apply (m : Action σ ε α) (f : α → Action σ ε β) (s : σ) :
    (m >>= f) s = match (m s).value with
      | none => ⟨none, (m s).state, (m s).journal⟩
      | some a =>
        ⟨(f a (m s).state).value, (f a (m s).state).state, (m s).journal ++ (f a (m s).state).journal⟩ := rfl

theorem bind_apply_some {m : Action σ ε α} {a : α} {s : σ} (h : (m s).value = some a) (f : α → Action σ ε β) :
    (m >>= f) s =
      ⟨(f a (m s).state).value, (f a (m s).state).state, (m s).journal ++ (f a (m s).state).journal⟩ := by
  rw [bind_apply, h]

theorem bind_apply_none {m : Action σ ε α} {s : σ} (h : (m s).value = none) (f : α → Action σ ε β) :
    (m >>= f) s = ⟨none, (m s).state, (m s).journal⟩ := by
  rw [bind_apply, h]

theorem map_apply (f : α → β) (m : Action σ ε α) (s : σ) :
    (f <$> m) s = ⟨(m s).value.map f, (m s).state, (m s).journal⟩ := by
  show (m >>= fun a => pure (f a)) s = _
  rw [bind_apply]
  rcases m s with ⟨_ | a, s', j⟩ <;> simp

theorem ite_apply (p : Prop) [Decidable p] (m k : Action σ ε α) (s : σ) :
    (if p then m else k) s = if p then m s else k s := by
  split <;> rfl

instance : LawfulMonad (Action σ ε) := LawfulMonad.mk' _
  (by
    intro α x
    funext s
    show (x >>= pure) s = x s
    rw [bind_apply]
    rcases x s with ⟨_ | a, s', j⟩ <;> simp)
  (by
    intro α β a f
    funext s
    rw [bind_apply]
    rcases h : f a s with ⟨v, s', j⟩
    simp [h])
  (by
    intro α β γ x f g
    funext s
    simp only [bind_apply]
    rcases x s with ⟨_ | a, s', j⟩
    · rfl
    · dsimp only
      rcases f a s' with ⟨_ | b, s'', k⟩ <;> simp)

end Action

end StepControl

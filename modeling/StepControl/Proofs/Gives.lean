/-
What an action gives: total correctness for actions, computed from their text.

`m.Gives s post` says that `m` does not break down when it starts in `s`, and that `post` holds of its value, the state it
leaves and the journal it writes. `m.Yields s post` is the partial form: `post` holds where `m` does not break down. Both
are about one run from one state, and the journal in `post` is what `m` itself wrote.

- `gives_pure`, `gives_bind`, `gives_read`, `gives_update`, `gives_write`, `gives_demand`, `gives_map`, `gives_ite`: each
  way of putting actions together has one equation, so what an operation gives is read off the operation by rewriting.
  Demanding an answer that may be missing is the one place where an action breaks down.
- `yields_bind`, `yields_map`: the same for the partial form, which is proved by cases of what the first part came to.
- `Gives.imp`, `Yields.imp`: consequences.
- `Gives.yields`, `Yields.gives`: an action that does not break down gives what it yields.
- `gives_congr`, `yields_congr`: only the run from `s` matters, so an action may be replaced by one that does the same from
  there.

An action that breaks down has written a journal, too; what holds of that is said in `Breakdowns`. That two actions do the
same is said in `SideBySide`.
-/
import StepControl.Action

namespace StepControl.Action

variable {σ ε α β : Type}

/-- `m` ends well from `s`, and `post` holds of its value, of the state it leaves and of what it writes -/
def Gives (m : Action σ ε α) (s : σ) (post : α → σ → List ε → Prop) : Prop :=
  ∃ a, (m s).value = some a ∧ post a (m s).state (m s).journal

variable {post : α → σ → List ε → Prop} {s : σ}

theorem Gives.imp {m : Action σ ε α} {post' : α → σ → List ε → Prop} (h : m.Gives s post)
    (himp : ∀ a t j, post a t j → post' a t j) : m.Gives s post' := by
  obtain ⟨a, ha, hp⟩ := h
  exact ⟨a, ha, himp a _ _ hp⟩

@[simp] theorem gives_pure (a : α) : (pure a : Action σ ε α).Gives s post ↔ post a s [] := by
  simp [Gives]

@[simp] theorem gives_read {post : σ → σ → List ε → Prop} : (read : Action σ ε σ).Gives s post ↔ post s s [] := by
  simp [Gives]

@[simp] theorem gives_update {post : Unit → σ → List ε → Prop} (f : σ → σ) :
    (update f : Action σ ε Unit).Gives s post ↔ post () (f s) [] :=
  ⟨fun ⟨_, _, h⟩ => h, fun h => ⟨(), rfl, h⟩⟩

@[simp] theorem gives_write {post : Unit → σ → List ε → Prop} (es : List ε) :
    (write es : Action σ ε Unit).Gives s post ↔ post () s es :=
  ⟨fun ⟨_, _, h⟩ => h, fun h => ⟨(), rfl, h⟩⟩

@[simp] theorem gives_demand (a : Option α) :
    (demand a : Action σ ε α).Gives s post ↔ ∃ x, a = some x ∧ post x s [] := by
  simp [Gives]

@[simp] theorem gives_bind {post : β → σ → List ε → Prop} (m : Action σ ε α) (f : α → Action σ ε β) :
    (m >>= f).Gives s post ↔ m.Gives s fun a t j => (f a).Gives t fun b u k => post b u (j ++ k) := by
  unfold Gives
  rw [bind_apply]
  constructor
  · rintro ⟨b, hb, hp⟩
    cases hm : (m s).value with
    | none => simp [hm] at hb
    | some a =>
      simp only [hm] at hb hp
      exact ⟨a, rfl, b, hb, hp⟩
  · rintro ⟨a, ha, b, hb, hp⟩
    rw [ha]
    exact ⟨b, hb, hp⟩

@[simp] theorem gives_map {post : β → σ → List ε → Prop} (f : α → β) (m : Action σ ε α) :
    (f <$> m).Gives s post ↔ m.Gives s fun a t j => post (f a) t j := by
  rw [map_eq_pure_bind, gives_bind]
  simp

theorem gives_ite (p : Prop) [Decidable p] (m k : Action σ ε α) :
    (if p then m else k).Gives s post ↔ if p then m.Gives s post else k.Gives s post := by
  split <;> rfl

/-- an action whose end is known gives what that end satisfies -/
theorem gives_of_eq {m : Action σ ε α} {a : α} {t : σ} {j : List ε} (h : m s = ⟨some a, t, j⟩) :
    m.Gives s post ↔ post a t j := by
  simp [Gives, h]

theorem gives_congr {m k : Action σ ε α} (h : m s = k s) : m.Gives s post ↔ k.Gives s post := by
  unfold Gives
  rw [h]

theorem eq_of_gives {m : Action σ ε α} {a : α} {t : σ} {j : List ε} (h : m.Gives s fun b u k => b = a ∧ u = t ∧ k = j) :
    m s = ⟨some a, t, j⟩ := by
  obtain ⟨b, hb, rfl, rfl, rfl⟩ := h
  rw [← hb]

/-! ## Actions that may break down -/

/-- where `m` ends well from `s`, `post` holds of its value, of the state it leaves and of what it writes -/
def Yields (m : Action σ ε α) (s : σ) (post : α → σ → List ε → Prop) : Prop :=
  ∀ a, (m s).value = some a → post a (m s).state (m s).journal

theorem Gives.yields {m : Action σ ε α} (h : m.Gives s post) : m.Yields s post := by
  intro b hb
  obtain ⟨a, ha, hp⟩ := h
  obtain rfl : a = b := Option.some.inj (ha.symm.trans hb)
  exact hp

theorem Yields.gives {m : Action σ ε α} (h : m.Yields s post) (hv : (m s).value.isSome = true) : m.Gives s post := by
  obtain ⟨a, ha⟩ := Option.isSome_iff_exists.1 hv
  exact ⟨a, ha, h a ha⟩

theorem Yields.imp {m : Action σ ε α} {post' : α → σ → List ε → Prop} (h : m.Yields s post)
    (himp : ∀ a t j, post a t j → post' a t j) : m.Yields s post' :=
  fun a ha => himp a _ _ (h a ha)

/-- an action that breaks down yields anything -/
theorem yields_of_none {m : Action σ ε α} (h : (m s).value = none) : m.Yields s post := by
  intro a ha
  rw [h] at ha
  exact absurd ha (by simp)

/-- what an action yields is what it cannot fail to give -/
theorem yields_iff_not_gives {m : Action σ ε α} : m.Yields s post ↔ ¬ m.Gives s fun a t j => ¬ post a t j := by
  simp [Yields, Gives]

theorem yields_of_eq {m : Action σ ε α} {a : α} {t : σ} {j : List ε} (h : m s = ⟨some a, t, j⟩) (hp : post a t j) :
    m.Yields s post :=
  ((gives_of_eq h).2 hp).yields

theorem yields_congr {m k : Action σ ε α} (h : m s = k s) : m.Yields s post ↔ k.Yields s post := by
  unfold Yields
  rw [h]

theorem yields_bind {post : β → σ → List ε → Prop} (m : Action σ ε α) (f : α → Action σ ε β) :
    (m >>= f).Yields s post ↔ m.Yields s fun a t j => (f a).Yields t fun b u k => post b u (j ++ k) := by
  unfold Yields
  rw [bind_apply]
  cases hm : (m s).value with
  | none => simp
  | some a => simp

/-- two actions do the same whose first parts do, and which go on in the same way wherever these lead -/
theorem bind_apply_congr {m k : Action σ ε α} {f g : α → Action σ ε β} (h : m s = k s)
    (hnext : m.Yields s fun a t _ => f a t = g a t) : (m >>= f) s = (k >>= g) s := by
  cases hm : (m s).value with
  | none =>
    rw [bind_apply_none hm, bind_apply_none (h ▸ hm), h]
  | some a =>
    have hsame := hnext a hm
    rw [bind_apply_some hm, bind_apply_some (h ▸ hm), hsame, h]

theorem yields_map {post : β → σ → List ε → Prop} (f : α → β) (m : Action σ ε α) :
    (f <$> m).Yields s post ↔ m.Yields s fun a t j => post (f a) t j := by
  unfold Yields
  rw [map_apply]
  cases hm : (m s).value with
  | none => simp
  | some a => simp

end StepControl.Action

/-
Two actions side by side.

`Agrees` compares two actions, each from a state of its own: they break down together, or end together with values and
states that a relation holds of; and what an observer sees of their journals is the same. The observers are two functions on
entries, one for each side, so that the journals need not have entries of one type, and entries that nobody sees do not
matter.

`Coupled` says that two actions agree wherever their states are related, end with values that go together, and leave related
states. Actions put together in the same way are coupled where their parts are:
- `Coupled.pure`, `Coupled.update`, `Coupled.write`, `Coupled.demand`: the simple actions;
- `Coupled.bind`, `Coupled.bind_eq`, `Coupled.map`: one after the other, where the values in between go together, or are
  equal;
- `Coupled.read_bind`: where an action looks at its state, it is enough to look at related states;
- `Coupled.ite`: where both decide the same way.
So whether two operations are coupled is settled by following their texts. `Agrees.bind` is the same for actions from given
states, for the places where the states have to be known.

Premises: none. What relates the states is for others to say: `Mirror` is such a relation on controllers, with its laws.
-/
import StepControl.Action

namespace StepControl

namespace Action

variable {σ τ ε φ δ α β γ κ : Type} {f : ε → Option δ} {g : φ → Option δ} {s : σ} {t : τ}
  {post : α → β → σ → τ → Prop}

/-- `m` from `s` and `k` from `t` break down together, or `post` holds of the values and the states that they end with;
and they write the same in the eyes of those who see `f` and `g` of the entries -/
structure Agrees (f : ε → Option δ) (g : φ → Option δ) (m : Action σ ε α) (s : σ) (k : Action τ φ β) (t : τ)
    (post : α → β → σ → τ → Prop) : Prop where
  journal : (m s).journal.filterMap f = (k t).journal.filterMap g
  value : Option.Rel (fun a b => post a b (m s).state (k t).state) (m s).value (k t).value

theorem agrees_of_eq {m : Action σ ε α} {k : Action τ φ β} {a : α} {b : β} {u : σ} {v : τ} {j : List ε} {l : List φ}
    (hm : m s = ⟨some a, u, j⟩) (hk : k t = ⟨some b, v, l⟩) (hj : j.filterMap f = l.filterMap g) (hp : post a b u v) :
    Agrees f g m s k t post where
  journal := by rw [hm, hk]; exact hj
  value := by rw [hm, hk]; exact .some hp

theorem agrees_congr {m m' : Action σ ε α} {k k' : Action τ φ β} (hm : m s = m' s) (hk : k t = k' t) :
    Agrees f g m s k t post ↔ Agrees f g m' s k' t post := by
  constructor
  · rintro ⟨hjournal, hvalue⟩
    rw [hm, hk] at hjournal hvalue
    exact ⟨hjournal, hvalue⟩
  · rintro ⟨hjournal, hvalue⟩
    rw [← hm, ← hk] at hjournal hvalue
    exact ⟨hjournal, hvalue⟩

theorem agrees_read_bind {m : σ → Action σ ε α} {k : τ → Action τ φ β} :
    Agrees f g (read >>= m) s (read >>= k) t post ↔ Agrees f g (m s) s (k t) t post :=
  agrees_congr rfl rfl

/-- two actions agree where their first parts do, and what follows agrees wherever these can lead -/
theorem Agrees.bind {m : Action σ ε α} {k : Action τ φ β} {m' : α → Action σ ε γ} {k' : β → Action τ φ κ}
    {post' : γ → κ → σ → τ → Prop} (h : Agrees f g m s k t post)
    (hnext : ∀ a b u v, post a b u v → Agrees f g (m' a) u (k' b) v post') :
    Agrees f g (m >>= m') s (k >>= k') t post' := by
  obtain ⟨hjournal, hvalue⟩ := h
  cases hm : (m s).value with
  | none =>
    cases hk : (k t).value with
    | none =>
      rw [hm, hk] at hvalue
      constructor
      · rw [bind_apply_none hm, bind_apply_none hk]
        exact hjournal
      · rw [bind_apply_none hm, bind_apply_none hk]
        exact .none
    | some b =>
      rw [hm, hk] at hvalue
      cases hvalue
  | some a =>
    cases hk : (k t).value with
    | none =>
      rw [hm, hk] at hvalue
      cases hvalue
    | some b =>
      rw [hm, hk] at hvalue
      cases hvalue with
      | some hab =>
        have hrest := hnext a b _ _ hab
        constructor
        · rw [bind_apply_some hm, bind_apply_some hk, List.filterMap_append, List.filterMap_append, hjournal, hrest.journal]
        · rw [bind_apply_some hm, bind_apply_some hk]
          exact hrest.value

/-! ## Coupled actions -/

/-- wherever the states are related, the actions agree, end with values that are related by `V`, and leave related states -/
def Coupled (R : σ → τ → Prop) (f : ε → Option δ) (g : φ → Option δ) (V : α → β → Prop) (m : Action σ ε α)
    (k : Action τ φ β) : Prop :=
  ∀ s t, R s t → Agrees f g m s k t fun a b s' t' => V a b ∧ R s' t'

namespace Coupled

variable {R : σ → τ → Prop} {V : α → β → Prop} {W : γ → κ → Prop}

theorem pure {a : α} {b : β} (h : V a b) : Coupled R f g V (pure a) (pure b) :=
  fun _ _ hst => agrees_of_eq rfl rfl rfl ⟨h, hst⟩

theorem bind {m : Action σ ε α} {k : Action τ φ β} {m' : α → Action σ ε γ} {k' : β → Action τ φ κ}
    (h : Coupled R f g V m k) (hnext : ∀ a b, V a b → Coupled R f g W (m' a) (k' b)) :
    Coupled R f g W (m >>= m') (k >>= k') :=
  fun s t hst => (h s t hst).bind fun a b s' t' hab => hnext a b hab.1 s' t' hab.2

/-- what comes after actions with equal values may depend on these -/
theorem bind_eq {m : Action σ ε α} {k : Action τ φ α} {m' : α → Action σ ε γ} {k' : α → Action τ φ κ}
    (h : Coupled R f g Eq m k) (hnext : ∀ a, Coupled R f g W (m' a) (k' a)) : Coupled R f g W (m >>= m') (k >>= k') :=
  h.bind fun a _ hab => hab ▸ hnext a

theorem read_bind {m : σ → Action σ ε α} {k : τ → Action τ φ β} (h : ∀ s t, R s t → Coupled R f g V (m s) (k t)) :
    Coupled R f g V (read >>= m) (read >>= k) :=
  fun s t hst => agrees_read_bind.2 (h s t hst s t hst)

theorem update {u : σ → σ} {v : τ → τ} (h : ∀ s t, R s t → R (u s) (v t)) :
    Coupled R f g Eq (update u) (update v) :=
  fun s t hst => agrees_of_eq rfl rfl rfl ⟨rfl, h s t hst⟩

theorem write {es : List ε} {fs : List φ} (h : es.filterMap f = fs.filterMap g) :
    Coupled R f g Eq (write es) (write fs) :=
  fun _ _ hst => agrees_of_eq rfl rfl h ⟨rfl, hst⟩

theorem demand {a : Option α} {b : Option β} (h : Option.Rel V a b) : Coupled R f g V (demand a) (demand b) := by
  intro s t hst
  refine ⟨rfl, ?_⟩
  cases h with
  | none => exact .none
  | some hab => exact .some ⟨hab, hst⟩

theorem map {m : Action σ ε α} {k : Action τ φ β} {u : α → γ} {v : β → κ} (h : Coupled R f g V m k)
    (huv : ∀ a b, V a b → W (u a) (v b)) : Coupled R f g W (u <$> m) (v <$> k) := by
  rw [map_eq_pure_bind, map_eq_pure_bind]
  exact h.bind fun a b hab => .pure (huv a b hab)

theorem ite {p q : Prop} [Decidable p] [Decidable q] {m m' : Action σ ε α} {k k' : Action τ φ β} (hpq : p ↔ q)
    (h : Coupled R f g V m k) (h' : Coupled R f g V m' k') :
    Coupled R f g V (if p then m else m') (if q then k else k') := by
  by_cases hp : p
  · rw [if_pos hp, if_pos (hpq.1 hp)]
    exact h
  · rw [if_neg hp, if_neg (mt hpq.2 hp)]
    exact h'

theorem imp {V' : α → β → Prop} {m : Action σ ε α} {k : Action τ φ β} (h : Coupled R f g V m k)
    (himp : ∀ a b, V a b → V' a b) : Coupled R f g V' m k := by
  have hmap := h.map (u := id) (v := id) himp
  rwa [id_map, id_map] at hmap

end Coupled

end Action

end StepControl

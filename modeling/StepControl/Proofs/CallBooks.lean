/-
The calls on all the interpreters that were built one after the other.

Interpreters are numbered in the order in which they are built, and each call is kept with the number of the interpreter
that it is on. `Books w loads live candidate` relates the calls `w` made so far to the interpreter of the session:
- each of the interpreters 1 to `loads` stands at the stage that its own calls lead to (`stageOf`);
- `live` is the interpreter of the session, with its stage;
- nobody turns back to an interpreter that is older than one that was reset;
- where `candidate` says so, the last one has only just passed its check, and no other is in use.

What a controller does with interpreters is one of five things, and each keeps the books:
- `Books.reject`: it builds one and checks it, and the program does not parse;
- `Books.accept`: it builds one and checks it, and the program parses;
- `Books.advance`: it calls the live one for a step, an input or the final reset;
- `Books.release`: it lets the live one go;
- `Books.adopt`: it takes on the one that passed its check, and resets it.

The stages and the words of calls that lead to them are in `CallWords`; that controllers keep the books is shown in
`CallProtocol`. Here calls are plain data, and nothing is assumed of controllers or interpreters.
-/
import StepControl.Proofs.CallWords

namespace StepControl

def Call.isReset : Call → Bool
  | .reset _ => true
  | _ => false

def callsOf (n : Nat) (w : List (Nat × Call)) : List Call :=
  w.filterMap fun e => if e.1 = n then some e.2 else none

def stageOf (n : Nat) (w : List (Nat × Call)) : Option Stage := Stage.fresh.read (callsOf n w)

theorem callsOf_concat (n m : Nat) (w : List (Nat × Call)) (call : Call) :
    callsOf n (w ++ [(m, call)]) = if m = n then callsOf n w ++ [call] else callsOf n w := by
  unfold callsOf
  rw [List.filterMap_append]
  split <;> simp_all

theorem stageOf_other {n m : Nat} (h : m ≠ n) (w : List (Nat × Call)) (call : Call) :
    stageOf n (w ++ [(m, call)]) = stageOf n w := by
  rw [stageOf, callsOf_concat, if_neg h, stageOf]

theorem stageOf_same {n : Nat} {w : List (Nat × Call)} {s t : Stage} {call : Call} (h : stageOf n w = some s)
    (hn : s.next? call = some t) : stageOf n (w ++ [(n, call)]) = some t := by
  rw [stageOf, callsOf_concat, if_pos rfl]
  exact Stage.read_concat h hn

theorem stageOf_unbuilt {n : Nat} {w : List (Nat × Call)} (h : ∀ e ∈ w, e.1 ≠ n) : stageOf n w = some .fresh := by
  have hnone : callsOf n w = [] := by
    refine List.filterMap_eq_nil_iff.2 ?_
    intro e he
    rw [if_neg (h e he)]
  rw [stageOf, hnone]
  rfl

/-! ## The books -/

/-- the calls `w` on the interpreters 1 to `loads`: `live` is the one of the session with its stage, and `candidate`
says that the last one has only just passed its check -/
structure Books (w : List (Nat × Call)) (loads : Nat) (live : Option (Nat × Stage)) (candidate : Bool) : Prop where
  built : ∀ e ∈ w, 0 < e.1 ∧ e.1 ≤ loads
  passed : candidate = true → 0 < loads ∧ stageOf loads w = some .passed
  settled : ∀ n, 0 < n → n ≤ loads → (candidate = true → n < loads) → ∃ s, stageOf n w = some s ∧ s.isSettled = true
  current : ∀ n s, live = some (n, s) → 0 < n ∧ n ≤ loads ∧ (candidate = true → n < loads) ∧ stageOf n w = some s
  order : w.Pairwise fun earlier later => earlier.2.isReset = true → earlier.1 ≤ later.1
  latest : ∀ e ∈ w, e.2.isReset = true → ∀ n s, live = some (n, s) → e.1 ≤ n

theorem books_nil : Books [] 0 none false where
  built := by simp
  passed := by simp
  settled n hn hle := by omega
  current := by simp
  order := List.Pairwise.nil
  latest := by simp

namespace Books

variable {w : List (Nat × Call)} {loads n : Nat} {live : Option (Nat × Stage)} {candidate : Bool} {s t : Stage}
  {call : Call}

theorem stageOf_next (h : Books w loads live candidate) : stageOf (loads + 1) w = some .fresh :=
  stageOf_unbuilt fun e he => by have := h.built e he; omega

/-- a call on the live interpreter, or a later one, comes in order -/
theorem order_concat (h : Books w loads live candidate) (hn : ∀ e ∈ w, e.2.isReset = true → e.1 ≤ n) :
    (w ++ [(n, call)]).Pairwise fun earlier later => earlier.2.isReset = true → earlier.1 ≤ later.1 := by
  refine List.pairwise_append.2 ⟨h.order, List.pairwise_singleton _ _, ?_⟩
  intro e he e' he' hr
  obtain rfl := List.mem_singleton.1 he'
  exact hn e he hr

theorem built_concat (h : Books w loads live candidate) {loads' : Nat} (hle : loads ≤ loads') (hn : 0 < n ∧ n ≤ loads') :
    ∀ e ∈ w ++ [(n, call)], 0 < e.1 ∧ e.1 ≤ loads' := by
  intro e he
  rcases List.mem_append.1 he with he | he
  · have := h.built e he
    omega
  · obtain rfl := List.mem_singleton.1 he
    exact hn

theorem latest_concat (h : Books w loads live candidate) (hn : call.isReset = true → ∀ m s, live = some (m, s) → n ≤ m) :
    ∀ e ∈ w ++ [(n, call)], e.2.isReset = true → ∀ m s, live = some (m, s) → e.1 ≤ m := by
  intro e he
  rcases List.mem_append.1 he with he | he
  · exact h.latest e he
  · obtain rfl := List.mem_singleton.1 he
    exact hn

/-- an interpreter is built, and its program does not parse -/
theorem reject (h : Books w loads live false) (message : String) :
    Books (w ++ [(loads + 1, .check (some (.rejected message)))]) (loads + 1) live false where
  built := h.built_concat (Nat.le_succ _) ⟨Nat.succ_pos _, Nat.le_refl _⟩
  passed := by simp
  settled n hn hle _ := by
    by_cases hnew : n = loads + 1
    · subst hnew
      exact ⟨.over, stageOf_same h.stageOf_next rfl, rfl⟩
    · rw [stageOf_other (Ne.symm hnew)]
      exact h.settled n hn (by omega) (by simp)
  current n s hl := by
    obtain ⟨hpos, hle, -, hs⟩ := h.current n s hl
    refine ⟨hpos, by omega, by simp, ?_⟩
    rwa [stageOf_other (by omega)]
  order := h.order_concat fun e he _ => by have := h.built e he; omega
  latest := h.latest_concat (by simp [Call.isReset])

/-- an interpreter is built, and its program parses -/
theorem accept (h : Books w loads live false) :
    Books (w ++ [(loads + 1, .check (some .accepted))]) (loads + 1) live true where
  built := h.built_concat (Nat.le_succ _) ⟨Nat.succ_pos _, Nat.le_refl _⟩
  passed _ := ⟨Nat.succ_pos _, stageOf_same h.stageOf_next rfl⟩
  settled n hn hle hlt := by
    have hold : n < loads + 1 := hlt rfl
    rw [stageOf_other (by omega)]
    exact h.settled n hn (by omega) (by simp)
  current n s hl := by
    obtain ⟨hpos, hle, -, hs⟩ := h.current n s hl
    refine ⟨hpos, by omega, fun _ => by omega, ?_⟩
    rwa [stageOf_other (by omega)]
  order := h.order_concat fun e he _ => by have := h.built e he; omega
  latest := h.latest_concat (by simp [Call.isReset])

/-- the live interpreter is called -/
theorem advance (h : Books w loads (some (n, s)) candidate) (hs : s.isSettled = true) (hn : s.next? call = some t) :
    Books (w ++ [(n, call)]) loads (some (n, t)) candidate := by
  obtain ⟨hpos, hle, hlt, hstage⟩ := h.current n s rfl
  have hnew : stageOf n (w ++ [(n, call)]) = some t := stageOf_same hstage hn
  have ht : t.isSettled = true := by
    rcases Stage.next?_of_isSettled hs hn with ⟨-, ht⟩ | ⟨-, rfl⟩
    · exact ht
    · rfl
  refine ⟨h.built_concat (Nat.le_refl _) ⟨hpos, hle⟩, ?_, ?_, ?_, ?_, ?_⟩
  · intro hc
    have hother : n ≠ loads := by have := hlt hc; omega
    rw [stageOf_other hother]
    exact h.passed hc
  · intro m hm hmle hmlt
    by_cases hsame : n = m
    · subst hsame
      exact ⟨t, hnew, ht⟩
    · rw [stageOf_other hsame]
      exact h.settled m hm hmle hmlt
  · rintro m r hl
    obtain ⟨rfl, rfl⟩ := Prod.mk.inj (Option.some.inj hl)
    exact ⟨hpos, hle, hlt, hnew⟩
  · exact h.order_concat fun e he hr => h.latest e he hr n s rfl
  · intro e he hr m r hl
    obtain ⟨rfl, rfl⟩ := Prod.mk.inj (Option.some.inj hl)
    rcases List.mem_append.1 he with he | he
    · exact h.latest e he hr n s rfl
    · obtain rfl := List.mem_singleton.1 he
      exact Nat.le_refl _

/-- the session lets go of its interpreter -/
theorem release (h : Books w loads live candidate) : Books w loads none candidate where
  built := h.built
  passed := h.passed
  settled := h.settled
  current := by simp
  order := h.order
  latest := by simp

/-- a session takes on the interpreter that has just passed its check -/
theorem adopt (h : Books w loads none true) : Books (w ++ [(loads, .reset true)]) loads (some (loads, .ready)) false := by
  obtain ⟨hpos, hpassed⟩ := h.passed rfl
  have hnew : stageOf loads (w ++ [(loads, .reset true)]) = some .ready := stageOf_same hpassed rfl
  refine ⟨h.built_concat (Nat.le_refl _) ⟨hpos, Nat.le_refl _⟩, by simp, ?_, ?_, ?_, ?_⟩
  · intro m hm hmle _
    by_cases hsame : loads = m
    · subst hsame
      exact ⟨.ready, hnew, rfl⟩
    · rw [stageOf_other hsame]
      exact h.settled m hm hmle fun _ => by omega
  · rintro m r hl
    obtain ⟨rfl, rfl⟩ := Prod.mk.inj (Option.some.inj hl)
    exact ⟨hpos, Nat.le_refl _, by simp, hnew⟩
  · exact h.order_concat fun e he _ => (h.built e he).2
  · intro e he _ m r hl
    obtain ⟨rfl, rfl⟩ := Prod.mk.inj (Option.some.inj hl)
    exact (h.built_concat (Nat.le_refl _) ⟨hpos, Nat.le_refl _⟩ e he).2

end Books

end StepControl

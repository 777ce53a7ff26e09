/-
Controllers that are alike.

A `Likeness` says in which respects two controllers are alike. Some are always compared: the program, the flag, the
interpreter of the session and what it is asked, the request for input, the interpreters that are still to be loaded. Log
records, the numbers of sessions, the settings a controller was made with and what the presenter makes of an announcement
never are. The rest is up to the likeness: which phases go together, which timers, which instants, and whether the
announcements of phases count.

A likeness is a mirror in which both sides have the same interpreters (`Likeness.mirror`, `Likeness.mirror_joins`), so what
controllers are made of keeps every likeness, and a fact about two ways to drive a controller is a matter of choosing one:
- `FreshSession` chooses the one in which everything counts (`afresh`);
- `HandStepping` lets the phases trail behind (`trailing`);
- `Cadence` lets the timers differ in what is laid down of them, and is a mirror of its own.

Results, for every likeness:
- `Likeness.alike_executeStep`: a step comes to the same on both sides, whatever the phases and the instants.
- `Likeness.alike_supplyInput`: so does an input; the results are the same where phases count.
- `Likeness.alike_begin`, `Likeness.alike_prepare`: so do the beginning of a session, and the loader call and the check
  before it.
- `calls_seen`, `notices_seen`: what is compared of two journals has the calls on interpreters in it, and the announcements.

Premises: that two loaders build the same interpreters from now on is part of being alike (`SameLoads`). Interpreters may
break down, and then they do so on both sides.
-/
import StepControl.Proofs.CallProtocol
import StepControl.Proofs.Mirror

namespace StepControl

/-! ## Loaders -/

section

variable {I L L' : Type} [Loader L I] [Loader L' I]

/-- the interpreters that a loader builds from texts, one after the other -/
def builds (l : L) : List String → List I
  | [] => []
  | text :: rest => (Loader.load l text).1 :: builds (Loader.load l text).2 rest

/-- from now on the loaders build the same interpreters from the same texts -/
def SameLoads (l : L) (l' : L') : Prop := ∀ texts, builds l texts = builds l' texts

variable {l : L} {l' : L'}

theorem SameLoads.built (h : SameLoads l l') (text : String) : (Loader.load l text).1 = (Loader.load l' text).1 :=
  List.head_eq_of_cons_eq (h [text])

theorem SameLoads.rest (h : SameLoads l l') (text : String) :
    SameLoads (Loader.load l text).2 (Loader.load l' text).2 :=
  fun texts => List.tail_eq_of_cons_eq (h (text :: texts))

end

/-! ## Likenesses -/

def Notice.isPhase : Notice → Bool
  | .phaseChanged _ => true
  | _ => false

/-- what is compared of an entry, where the interpreters are counted from `n` on; `tells` says whether the announcements of
phases count -/
def Entry.seen {I : Type} (tells : Bool) (n : Nat) : Entry I → Option (Entry I)
  | .loaded serial text => some (.loaded (serial - n) text)
  | .called serial before call => some (.called (serial - n) before call)
  | .shown notice => if notice.isPhase = true ∧ tells = false then none else some (.shown notice)
  | .noted _ => none

/-- the same interpreter, where the one controller counts from `n` on and the other from `n'` on -/
structure SameInstance {I : Type} (n n' : Nat) (inst inst' : Instance I) : Prop where
  machine : inst.machine = inst'.machine
  serial : inst.serial + n' = inst'.serial + n
  le : n ≤ inst.serial

/-- in which respects two controllers are alike -/
structure Likeness where
  phases : Phase → Phase → Prop
  timers : Timer → Timer → Prop
  instants : Instant → Instant → Prop
  /-- the announcements of phases count -/
  tells : Bool
  /-- the number from which the interpreters of the first controller are counted -/
  first : Nat
  /-- the number from which those of the second are counted -/
  second : Nat
  phases_still : ∀ {p}, p.canStep = false → phases p p
  phases_apart : ∀ {p q}, phases p q → p = q ∨ p.canStep = true ∧ q.canStep = true ∧ tells = false
  timers_stop : ∀ {t u}, timers t u → timers t.stop u.stop
  timers_start : ∀ {t u now now'}, timers t u → instants now now' → timers (t.start now) (u.start now')

namespace Entry

variable {I : Type}

@[simp] theorem seen_loaded (tells : Bool) (n serial : Nat) (text : String) :
    (.loaded serial text : Entry I).seen tells n = some (.loaded (serial - n) text) := rfl

@[simp] theorem seen_called (tells : Bool) (n serial : Nat) (before : I) (call : Call) :
    (.called serial before call : Entry I).seen tells n = some (.called (serial - n) before call) := rfl

@[simp] theorem seen_noted (tells : Bool) (n : Nat) (note : Note) : (.noted note : Entry I).seen tells n = none := rfl

@[simp] theorem seen_shown_true (n : Nat) (notice : Notice) :
    (.shown notice : Entry I).seen true n = some (.shown notice) := by
  simp [seen]

end Entry

namespace Controller

variable {I : Type}

/-- the calls are compared, with the numbers of the interpreters counted from `n` on -/
theorem calls_seen (tells : Bool) (n : Nat) (j : List (Entry I)) :
    (j.filterMap (Entry.seen tells n)).filterMap Entry.call? = (calls j).map fun e => (e.1 - n, e.2) := by
  rw [calls, List.filterMap_filterMap, List.map_filterMap]
  refine List.filterMap_congr fun e _ => ?_
  cases e with
  | shown notice =>
    rw [Entry.seen]
    split <;> rfl
  | _ => rfl

/-- the announcements are compared, those of phases where they count -/
theorem notices_seen (tells : Bool) (n : Nat) (j : List (Entry I)) :
    (j.filterMap (Entry.seen tells n)).filterMap Entry.notice? =
      (notices j).filter fun notice => tells || !notice.isPhase := by
  rw [notices, List.filterMap_filterMap, List.filter_filterMap]
  refine List.filterMap_congr fun e _ => ?_
  cases e with
  | shown notice => cases tells <;> cases hphase : notice.isPhase <;> simp [Entry.seen, Entry.notice?, Option.filter, hphase]
  | _ => rfl

end Controller

theorem SameInstance.eq {I : Type} {n : Nat} {inst inst' : Instance I} (h : SameInstance n n inst inst') : inst = inst' := by
  cases inst
  cases inst'
  obtain ⟨hmachine, hserial, -⟩ := h
  simp only [Instance.mk.injEq]
  exact ⟨Nat.add_right_cancel hserial, hmachine⟩

namespace Likeness

variable {I L P L' P' α β γ κ : Type}

variable [Loader L I] [Loader L' I]

structure Joins (K : Likeness) (c : Controller I L P) (d : Controller I L' P') : Prop where
  phase : K.phases c.phase d.phase
  timer : K.timers c.timer d.timer
  loader : SameLoads c.loader d.loader
  loads : c.loads + K.second = d.loads + K.first
  le : K.first ≤ c.loads
  live : Option.Rel (SameInstance K.first K.second) c.live d.live
  program : c.program = d.program
  optimize : c.optimize = d.optimize
  buffer : c.buffer = d.buffer
  gate : c.gate = d.gate
  errorShown : c.errorShown = d.errorShown

/-- the actions agree wherever the controllers are alike, and leave them alike -/
def Alike (K : Likeness) (V : α → β → Prop) (m : Drive I L P α) (k : Drive I L' P' β) : Prop :=
  ∀ c d, K.Joins c d →
    Action.Agrees (Entry.seen K.tells K.first) (Entry.seen K.tells K.second) m c k d fun a b c' d' => V a b ∧ K.Joins c' d'

variable {K : Likeness} {c : Controller I L P} {d : Controller I L' P'} {V : α → β → Prop} {W : γ → κ → Prop}

theorem Joins.live_cases (h : K.Joins c d) : (c.live = none ∧ d.live = none) ∨
    ∃ inst inst', c.live = some inst ∧ d.live = some inst' ∧ SameInstance K.first K.second inst inst' := by
  have hlive := h.live
  generalize c.live = l at hlive ⊢
  generalize d.live = l' at hlive ⊢
  cases hlive with
  | none => exact Or.inl ⟨rfl, rfl⟩
  | some hsame => exact Or.inr ⟨_, _, rfl, rfl, hsame⟩

/-- the controllers are in the same phase, except where both could take a step -/
theorem Joins.phase_iff (h : K.Joins c d) {p : Phase} (hp : p.canStep = false) : c.phase = p ↔ d.phase = p := by
  rcases K.phases_apart h.phase with hsame | ⟨hc, hd, -⟩
  · rw [hsame]
  · constructor
    · rintro rfl
      simp [hp] at hc
    · rintro rfl
      simp [hp] at hd

namespace Alike

theorem pure {a : α} {b : β} (h : V a b) : K.Alike V (pure a : Drive I L P α) (pure b : Drive I L' P' β) :=
  Action.Coupled.pure h

/-- what comes after actions with equal values may depend on these -/
theorem bind_eq {m : Drive I L P α} {k : Drive I L' P' α} {f : α → Drive I L P γ} {g : α → Drive I L' P' κ}
    (hm : K.Alike Eq m k) (hf : ∀ a, K.Alike W (f a) (g a)) : K.Alike W (m >>= f) (k >>= g) :=
  Action.Coupled.bind_eq hm hf

theorem read_bind {f : Controller I L P → Drive I L P α} {g : Controller I L' P' → Drive I L' P' β}
    (hf : ∀ c d, K.Joins c d → K.Alike V (f c) (g d)) : K.Alike V (Action.read >>= f) (Action.read >>= g) :=
  Action.Coupled.read_bind hf

theorem map {m : Drive I L P α} {k : Drive I L' P' β} {f : α → γ} {g : β → κ} (hm : K.Alike V m k)
    (hf : ∀ a b, V a b → W (f a) (g b)) : K.Alike W (f <$> m) (g <$> k) :=
  Action.Coupled.map hm hf

theorem ite {p q : Prop} [Decidable p] [Decidable q] {m m' : Drive I L P α} {k k' : Drive I L' P' β} (hpq : p ↔ q)
    (hm : K.Alike V m k) (hm' : K.Alike V m' k') : K.Alike V (if p then m else m') (if q then k else k') :=
  Action.Coupled.ite hpq hm hm'

theorem value_eq {m : Drive I L P α} {k : Drive I L' P' α} (h : K.Alike Eq m k) (hcd : K.Joins c d) :
    (m c).value = (k d).value := by
  have hvalue := (h c d hcd).value
  generalize (m c).value = a at hvalue ⊢
  generalize (k d).value = b at hvalue ⊢
  cases hvalue with
  | none => rfl
  | some hab => rw [hab.1]

theorem joins {m : Drive I L P α} {k : Drive I L' P' β} (h : K.Alike V m k) (hcd : K.Joins c d)
    (hv : (m c).value.isSome = true) : K.Joins (m c).state (k d).state := by
  have hvalue := (h c d hcd).value
  generalize (m c).value = a at hvalue hv
  generalize (k d).value = b at hvalue
  cases hvalue with
  | none => simp at hv
  | some hab => exact hab.2

end Alike

/-! ## Likenesses are mirrors -/

variable [Interpreter I]

/-- counted from where the sides start to count, the numbers are the same -/
theorem count_eq {n n' m m' : Nat} (h : m + n' = m' + n ∧ n ≤ m) : m - n = m' - n' := by
  omega

/-- the mirror that shows what is compared; the interpreters are the same on both sides -/
def mirror (K : Likeness) : Mirror I L I L' (Entry I) where
  phases := K.phases
  timers := K.timers
  instants := K.instants
  faults := Eq
  machines := Eq
  serials n n' := n + K.second = n' + K.first ∧ K.first ≤ n
  loaders := SameLoads
  sees := Entry.seen K.tells K.first
  sees' := Entry.seen K.tells K.second
  phases_still := K.phases_still
  phases_apart := by
    intro p q h
    rcases K.phases_apart h with hsame | ⟨hp, hq, htells⟩
    · exact Or.inl hsame
    · exact Or.inr ⟨hp, hq, fun target => by rw [htells]; rfl⟩
  timers_stop := K.timers_stop
  timers_start := K.timers_start
  faults_refl _ := rfl
  serials_succ h := ⟨by omega, Nat.le_succ_of_le h.2⟩
  sees_noted _ := rfl
  sees_noted' _ := rfl
  sees_shown _ := rfl
  sees_loaded text h := by
    rw [Entry.seen_loaded, Entry.seen_loaded, count_eq h]
  sees_called hmachine hserial hcall := by
    rw [Entry.seen_called, Entry.seen_called, hmachine, hcall.eq, count_eq hserial]
  together := together_same (fun text h => h.built text) fun text h => h.rest text

theorem twins_iff {inst inst' : Instance I} : (K.mirror : Mirror I L I L' (Entry I)).Twins inst inst' ↔
    SameInstance K.first K.second inst inst' :=
  ⟨fun h => ⟨h.machine, h.serial.1, h.serial.2⟩, fun h => ⟨h.machine, h.serial, h.le⟩⟩

theorem mirror_joins : (K.mirror : Mirror I L I L' (Entry I)).Joins c d ↔ K.Joins c d := by
  have hlive : ∀ l l' : Option (Instance I), Option.Rel (K.mirror : Mirror I L I L' (Entry I)).Twins l l' ↔
      Option.Rel (SameInstance K.first K.second) l l' := by
    intro l l'
    constructor
    · rintro (h | _)
      · exact .some (twins_iff.1 h)
      · exact .none
    · rintro (h | _)
      · exact .some (twins_iff.2 h)
      · exact .none
  constructor
  · rintro ⟨hphase, htimer, hloader, hloads, hl, hprogram, hoptimize, hbuffer, hgate, herror⟩
    exact ⟨hphase, htimer, hloader, hloads.1, hloads.2, (hlive _ _).1 hl, hprogram, hoptimize, hbuffer, hgate, herror⟩
  · rintro ⟨hphase, htimer, hloader, hloads, hle, hl, hprogram, hoptimize, hbuffer, hgate, herror⟩
    exact ⟨hphase, htimer, hloader, ⟨hloads, hle⟩, (hlive _ _).2 hl, hprogram, hoptimize, hbuffer, hgate, herror⟩

/-- what a mirror shows to be the same is alike -/
theorem Alike.of_mirrors {m : Drive I L P α} {k : Drive I L' P' β}
    (h : (K.mirror : Mirror I L I L' (Entry I)).Mirrors V m k) : K.Alike V m k := by
  intro c d hcd
  obtain ⟨hjournal, hvalue⟩ := h c d (mirror_joins.2 hcd)
  refine ⟨hjournal, ?_⟩
  generalize (m c).value = a at hvalue ⊢
  generalize (k d).value = b at hvalue ⊢
  cases hvalue with
  | none => exact .none
  | some hab => exact .some ⟨hab.1, mirror_joins.1 hab.2⟩

end Likeness

namespace Controller

variable {I L P L' P' : Type} [Interpreter I] [Loader L I] [Loader L' I] [Presenter P] [Presenter P'] {K : Likeness}
  {now now' : Instant}

/-- **A step comes to the same on both sides**, whatever the phases and the instants. -/
theorem alike_executeStep :
    K.Alike Eq (executeStep now : Drive I L P Outcome) (executeStep now' : Drive I L' P' Outcome) :=
  .of_mirrors (mirrors_executeStep.imp fun _ _ h => h.eq)

/-- **An input comes to the same on both sides**; the results are the same where phases count. -/
theorem alike_supplyInput (hrunning : K.phases .running .running) (hnow : K.instants now now') (text : String) :
    K.Alike (fun result result' => K.tells = true → result = result')
      (supplyInput now text : Drive I L P (Except Error Unit))
      (supplyInput now' text : Drive I L' P' (Except Error Unit)) := by
  refine .of_mirrors ((mirrors_supplyInput (K := K.mirror) hrunning hnow text).imp ?_)
  intro result result' h htells
  refine h fun hphases => ?_
  rcases K.phases_apart hphases with hsame | ⟨-, -, hno⟩
  · exact hsame
  · simp [htells] at hno

theorem alike_begin {inst inst' : Instance I} (h : SameInstance K.first K.second inst inst') :
    K.Alike Eq (begin inst : Drive I L P Unit) (begin inst' : Drive I L' P' Unit) :=
  .of_mirrors (mirrors_begin (Likeness.twins_iff.2 h))

/-- the same answer of a check, with the same interpreter -/
inductive SamePrepared (n n' : Nat) : Except Error (Instance I) → Except Error (Instance I) → Prop where
  | error (e : Error) : SamePrepared n n' (.error e) (.error e)
  | ok {inst inst' : Instance I} (same : SameInstance n n' inst inst') : SamePrepared n n' (.ok inst) (.ok inst')

theorem alike_prepare :
    K.Alike (SamePrepared K.first K.second) (prepare : Drive I L P (Except Error (Instance I)))
      (prepare : Drive I L' P' (Except Error (Instance I))) := by
  refine .of_mirrors (mirrors_prepare.imp ?_)
  intro prepared prepared' h
  cases h with
  | error e => exact .error e
  | ok twins => exact .ok (Likeness.twins_iff.1 twins)

end Controller

end StepControl

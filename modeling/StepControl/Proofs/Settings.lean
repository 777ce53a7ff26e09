/-
Settings are what was written last, and writing one touches nothing else.

The program text, the flag for the steps and the step delay are written by three requests, and by nothing else: every other
action heeds the settings (`Heeds`), which is to say that it leaves them as they are, gives the loader the program text, and
gives the interpreter the flag at each step. This holds of operations that break down as well.

(1) What is not a setter. `heeds_perform`: by one lemma for each action that operations are made of; `heeds_executeStep` and
`heeds_prepare` are the two in which a setting is used.

(2) Setters. `perform_setsOnly`: a setter returns, calls nobody, and changes what it sets and nothing else, dispatched or
not. An accepted delay moves the arming of a timer that is armed; a delay of zero is refused and changes nothing
(`writing`).

(3) Histories. `settings_perform`: what an operation does to the settings can be read off its entry in the history. By
induction on histories, `Since.settings_eq`: last writer wins, and before the first write the settings are those of the
configuration.

Results:
- `settings_written`: the three together, for every run of a controller; every call is made with what was written last
  before it. The delay is kept in two places, with the timer and as the period of the interval that was laid down, and they
  agree.
- `settings_written_running`: settings that are written in the middle of a session.

Premises: none of the interpreter, nor of what happens in between, other setters included.
-/
import StepControl.Proofs.Refusals
import StepControl.Proofs.Settling
import StepControl.Script

namespace StepControl

open StepControl.Action

/-- what a controller was told to do its work with, and what it was made with -/
structure Settings where
  config : Config
  program : String
  optimize : Bool
  delay : Delay
  deriving DecidableEq

/-- a call for a step was given the flag -/
def Call.heeds (s : Settings) : Call → Prop
  | .next optimize _ _ => optimize = s.optimize
  | _ => True

/-- a loader call was given the program text, and a call for a step the flag -/
def Entry.heeds {I : Type} (s : Settings) : Entry I → Prop
  | .loaded _ text => text = s.program
  | .called _ _ call => call.heeds s
  | _ => True

def Operation.isSetter (op : Operation) : Bool :=
  match op.plain with
  | .load _ | .setOptimize _ | .setDelay _ => true
  | _ => false

theorem Intent.isSetter_operation (intent : Intent) :
    intent.operation.isSetter = (Operation.dispatch intent).isSetter := by
  rw [Operation.isSetter, Intent.plain_operation]
  rfl

namespace Controller

variable {I L P α β : Type} {s : Settings}

def settings (c : Controller I L P) : Settings := ⟨c.config, c.program, c.optimize, c.delay⟩

/-- with the settings `s` the action leaves them as they are, and all its calls are made with them -/
def Heeds (s : Settings) (m : Drive I L P α) : Prop :=
  ∀ c, c.settings = s → (m c).state.settings = s ∧ ∀ e ∈ (m c).journal, e.heeds s

/-! ## Ways of putting actions together -/

namespace Heeds

theorem pure (a : α) : Heeds s (pure a : Drive I L P α) := fun _ hc => ⟨hc, by simp⟩

theorem bind {m : Drive I L P α} {f : α → Drive I L P β} (hm : Heeds s m) (hf : ∀ a, Heeds s (f a)) :
    Heeds s (m >>= f) := by
  intro c hc
  obtain ⟨hstate, hentries⟩ := hm c hc
  rw [bind_apply]
  cases (m c).value with
  | none => exact ⟨hstate, hentries⟩
  | some a =>
    obtain ⟨hstate', hentries'⟩ := hf a _ hstate
    refine ⟨hstate', fun e he => ?_⟩
    rcases List.mem_append.1 he with hfirst | hsecond
    · exact hentries e hfirst
    · exact hentries' e hsecond

theorem read_bind {f : Controller I L P → Drive I L P α} (h : ∀ c, c.settings = s → Heeds s (f c)) :
    Heeds s (Action.read >>= f) := fun c hc => h c hc c hc

theorem update {u : Controller I L P → Controller I L P} (h : ∀ c, (u c).settings = c.settings) :
    Heeds s (Action.update u : Drive I L P Unit) := fun c hc => ⟨(h c).trans hc, by simp⟩

theorem write {es : List (Entry I)} (h : ∀ e ∈ es, e.heeds s) : Heeds s (Action.write es : Drive I L P Unit) :=
  fun _ hc => ⟨hc, h⟩

theorem demand (a : Option α) : Heeds s (Action.demand a : Drive I L P α) := fun _ hc => ⟨hc, by simp⟩

theorem map (f : α → β) {m : Drive I L P α} (h : Heeds s m) : Heeds s (f <$> m) := by
  rw [map_eq_pure_bind]
  exact h.bind fun a => .pure (f a)

theorem ite {p : Prop} [Decidable p] {m k : Drive I L P α} (hm : Heeds s m) (hk : Heeds s k) :
    Heeds s (if p then m else k) := by
  split
  · exact hm
  · exact hk

end Heeds

/-! ## The small actions -/

variable (now : Instant)

theorem heeds_note (notes : List Note) : Heeds s (note notes : Drive I L P Unit) := by
  refine .write fun e he => ?_
  obtain ⟨note, -, rfl⟩ := List.mem_map.1 he
  trivial

theorem heeds_called (inst : Instance I) {call : Call} (h : call.heeds s) :
    Heeds s (called inst call : Drive I L P Unit) := by
  refine .write fun e he => ?_
  obtain rfl := List.mem_singleton.1 he
  exact h

theorem heeds_ignore (intent : Intent) : Heeds s (ignore intent : Drive I L P Unit) := .read_bind fun _ _ => heeds_note _

theorem heeds_disarm : Heeds s (disarm : Drive I L P Unit) := .update fun _ => rfl

theorem heeds_arm : Heeds s (arm now : Drive I L P Unit) := .update fun _ => rfl

theorem heeds_resetInstance [Interpreter I] (inst : Instance I) :
    Heeds s (resetInstance inst : Drive I L P (Instance I)) :=
  .bind (heeds_called inst (by trivial)) fun _ => .bind (.demand _) fun _ => .pure _

variable [Presenter P]

theorem heeds_announce (notice : Notice) : Heeds s (announce notice : Drive I L P Unit) := by
  refine fun c hc => ⟨hc, fun e he => ?_⟩
  obtain rfl := List.mem_singleton.1 he
  trivial

theorem heeds_announceAll (ns : List Notice) : Heeds s (announceAll ns : Drive I L P Unit) := by
  induction ns with
  | nil => exact .pure ()
  | cons n rest ih => exact (heeds_announce n).bind fun _ => ih

theorem heeds_goTo (target : Phase) : Heeds s (goTo target : Drive I L P Unit) := by
  refine .read_bind fun c _ => .ite (.pure ()) ?_
  exact (heeds_note _).bind fun _ => .bind (.update fun _ => rfl) fun _ => heeds_announce _

theorem heeds_showFault (message : String) : Heeds s (showFault message : Drive I L P Unit) :=
  .read_bind fun _ _ => .ite (.pure ()) (.bind (.update fun _ => rfl) fun _ => heeds_announce _)

theorem heeds_halt (why : Halt) : Heeds s (halt why : Drive I L P Outcome) := by
  refine heeds_disarm.bind fun _ => .read_bind fun c _ => ?_
  rcases why with _ | ⟨message⟩ | ⟨message⟩
  · exact (heeds_note _).bind fun _ => (heeds_goTo _).bind fun _ => .pure _
  · exact (heeds_note _).bind fun _ => (heeds_showFault _).bind fun _ => (heeds_goTo _).bind fun _ => .pure _
  · exact (heeds_note _).bind fun _ => (heeds_goTo _).bind fun _ => .pure _

theorem heeds_follow (signal : Signal) : Heeds s (follow now signal : Drive I L P Unit) := by
  cases signal with
  | blocked => exact .bind (.update fun _ => rfl) fun _ => heeds_goTo _
  | resume => exact (heeds_arm now).bind fun _ => heeds_goTo _

theorem heeds_settleStep (events : StepBuffer) : Heeds s (settleStep now events : Drive I L P Outcome) := by
  unfold settleStep
  split
  · refine .bind (.read_bind fun c _ => ?_) fun _ => .pure _
    refine (heeds_note _).bind fun _ => .bind (.update fun _ => rfl) fun _ => ?_
    exact (heeds_follow now _).bind fun _ => heeds_announce _
  · exact .pure _

/-! ## Operations that change no setting -/

theorem heeds_pause : Heeds s (pause : Drive I L P Unit) := by
  refine .read_bind fun c _ => ?_
  split
  · exact .bind (.update fun _ => rfl) fun _ => heeds_goTo _
  · exact .pure ()
  · exact heeds_ignore _

theorem heeds_resume : Heeds s (resume now : Drive I L P Unit) :=
  .read_bind fun _ _ => .ite ((heeds_arm now).bind fun _ => heeds_goTo _) (heeds_ignore _)

variable [Interpreter I]

/-- **The flag of a step** is the one that was set last, in the middle of a session as well. -/
theorem heeds_executeStep : Heeds s (executeStep now : Drive I L P Outcome) := by
  refine .read_bind fun c hc => ?_
  have hflag : c.optimize = s.optimize := congrArg Settings.optimize hc
  cases c.live with
  | none => exact heeds_halt _
  | some inst =>
    refine (heeds_called inst (by exact hflag)).bind fun _ => (heeds_note _).bind fun _ => ?_
    refine .bind (.update fun _ => rfl) fun _ => (Heeds.demand _).bind fun ending => ?_
    refine .bind (.update fun _ => rfl) fun _ => (heeds_announceAll _).bind fun _ => ?_
    cases ending.1 with
    | halt why => exact heeds_halt why
    | proceed => exact heeds_settleStep now _

theorem heeds_step : Heeds s (step now : Drive I L P (Option Outcome)) :=
  .read_bind fun _ _ => .ite (.map _ (heeds_executeStep now)) ((heeds_ignore _).bind fun _ => .pure _)

theorem heeds_tick : Heeds s (tick now : Drive I L P (Option Outcome)) :=
  .read_bind fun _ _ => .ite (.map _ (heeds_executeStep now)) ((heeds_note _).bind fun _ => .pure _)

theorem heeds_supplyInput (text : String) : Heeds s (supplyInput now text : Drive I L P (Except Error Unit)) := by
  refine .read_bind fun c _ => .ite ((heeds_note _).bind fun _ => .pure _) ?_
  cases c.live with
  | none => exact .pure _
  | some inst =>
    refine .bind (.update fun _ => rfl) fun _ => ?_
    cases (c.gate.supply text inst.machine).1 with
    | error e => exact .pure _
    | ok delivery =>
      refine (heeds_called inst (by trivial)).bind fun _ => (Heeds.demand _).bind fun answer => ?_
      refine .bind (.update fun _ => rfl) fun _ => ?_
      cases answer.1 with
      | proceed => exact (heeds_follow now _).bind fun _ => .pure _
      | halt why => exact (heeds_halt why).bind fun _ => .pure _

theorem heeds_stop : Heeds s (stop : Drive I L P Unit) := by
  refine .read_bind fun c _ => ?_
  split
  · exact heeds_ignore _
  · exact heeds_ignore _
  · refine heeds_disarm.bind fun _ => ?_
    cases c.live with
    | none => exact (heeds_note _).bind fun _ => heeds_goTo _
    | some inst =>
      refine .bind (.update fun _ => rfl) fun _ => (heeds_resetInstance inst).bind fun _ => ?_
      exact (heeds_note _).bind fun _ => heeds_goTo _

theorem heeds_begin (inst : Instance I) : Heeds s (begin inst : Drive I L P Unit) := by
  refine .read_bind fun c _ => .ite (heeds_stop.bind fun _ => ?_) ?_
  all_goals
    refine heeds_disarm.bind fun _ => (heeds_resetInstance inst).bind fun fresh => ?_
    refine .read_bind fun c _ => (heeds_note _).bind fun _ => .bind (.update fun _ => rfl) fun _ => ?_
    exact heeds_announce _

variable [Loader L I]

/-- **The text of a loader call** is the one that was loaded last. -/
theorem heeds_prepare : Heeds s (prepare : Drive I L P (Except Error (Instance I))) := by
  refine .read_bind fun c hc => .bind (.update fun _ => rfl) fun _ => .bind (.write fun e he => ?_) fun _ => ?_
  · obtain rfl := List.mem_singleton.1 he
    exact congrArg Settings.program hc
  · refine (heeds_called _ (by trivial)).bind fun _ => (Heeds.demand _).bind fun answer => ?_
    cases answer with
    | accepted => exact .pure _
    | rejected message => exact (heeds_note _).bind fun _ => (heeds_announce _).bind fun _ => .pure _

theorem heeds_run : Heeds s (run now : Drive I L P (Except Error Unit)) := by
  refine heeds_prepare.bind fun prepared => ?_
  cases prepared with
  | error e => exact .pure _
  | ok inst => exact (heeds_begin inst).bind fun _ => (heeds_arm now).bind fun _ => (heeds_goTo _).bind fun _ => .pure _

theorem heeds_firstStep : Heeds s (firstStep now : Drive I L P (Except Error Outcome)) := by
  refine heeds_prepare.bind fun prepared => ?_
  cases prepared with
  | error e => exact .pure _
  | ok inst =>
    refine (heeds_begin inst).bind fun _ => (heeds_goTo _).bind fun _ => (heeds_executeStep now).bind fun outcome => ?_
    exact .read_bind fun c _ => .ite ((heeds_goTo _).bind fun _ => .pure _) (.pure _)

/-- **Every operation but the three setters heeds the settings**, also where it breaks down. -/
theorem heeds_perform {op : Operation} (hop : op.isSetter = false) : Heeds s (perform now op : Drive I L P Reply) := by
  have hintent : ∀ intent : Intent, intent.operation.isSetter = false →
      Heeds s (perform now intent.operation : Drive I L P Reply) := by
    intro intent hintent
    cases intent with
    | load text => cases hintent
    | setOptimize on => cases hintent
    | setDelay millis => cases hintent
    | run => exact (heeds_run now).map _
    | firstStep => exact (heeds_firstStep now).map _
    | step => exact (heeds_step now).map _
    | pause => exact heeds_pause.bind fun _ => .pure _
    | resume => exact (heeds_resume now).bind fun _ => .pure _
    | stop => exact heeds_stop.bind fun _ => .pure _
    | supplyInput text => exact (heeds_supplyInput now text).map _
  rcases op.kinds with rfl | ⟨intent, rfl⟩ | ⟨intent, rfl⟩
  · exact (heeds_tick now).map _
  · exact hintent intent hop
  · refine .map _ ?_
    rw [dispatch_eq]
    rw [← intent.isSetter_operation] at hop
    exact .read_bind fun _ _ => (heeds_note _).bind fun _ => (hintent intent hop).map _

/-! ## Setters -/

omit [Interpreter I] [Loader L I] [Presenter P] in
/-- the timer after a change of its delay: its schedule starts anew if it has one -/
theorem setDelay_timer (now : Instant) (delay : Delay) (t : Timer) :
    t.setDelay now delay = ⟨delay, t.schedule.map fun _ => { armedAt := now }⟩ := by
  unfold Timer.setDelay Timer.isActive
  cases t.schedule <;> rfl

/-- the controller that a setter leaves: an accepted delay moves the arming of a timer that is armed, and a delay of zero is
refused -/
def writing (now : Instant) (c : Controller I L P) : Operation → Except Error (Controller I L P)
  | .load text => .ok { c with program := text }
  | .setOptimize on => .ok { c with optimize := on }
  | .setDelay millis => (Delay.ofMillis millis).map fun delay =>
      { c with timer := ⟨delay, c.timer.schedule.map fun _ => { armedAt := now }⟩ }
  | _ => .ok c

/-- a setter returns, calls nobody, and changes what it sets and nothing else; where it is refused it changes nothing -/
def SetsOnly (now : Instant) (op : Operation) (c : Controller I L P) : Prop :=
  op.isSetter = true → Gives (perform now op : Drive I L P Reply) c fun reply d j =>
    deeds j = [] ∧ match c.writing now op.plain with
      | .ok written => reply.toResult = .ok () ∧ d = written
      | .error e => reply.toResult = .error e ∧ d = c

theorem intent_setsOnly (intent : Intent) (c : Controller I L P) : SetsOnly now intent.operation c := by
  intro hop
  rw [Intent.plain_operation]
  cases intent with
  | load text => simp [Intent.operation, writing, perform, load, Reply.toResult, deeds]
  | setOptimize on => simp [Intent.operation, writing, perform, setOptimize, Reply.toResult, deeds]
  | setDelay millis =>
    simp only [Intent.operation, writing, perform, gives_map, setDelay]
    cases Delay.ofMillis millis with
    | error e => simp [Except.map, Reply.toResult]
    | ok delay => simp [Except.map, Reply.toResult, setDelay_timer, deeds, Entry.note?]
  | _ => cases hop

/-- **Setters touch nothing else**, dispatched or not. -/
theorem perform_setsOnly (op : Operation) (c : Controller I L P) : SetsOnly now op c := by
  rcases op.kinds with rfl | ⟨intent, rfl⟩ | ⟨intent, rfl⟩
  · intro hop
    cases hop
  · exact intent_setsOnly now intent c
  · intro hop
    rw [← intent.isSetter_operation] at hop
    have hsame := intent_setsOnly now intent c hop
    rw [Intent.plain_operation] at hsame
    exact (gives_dispatch intent).2 hsame

end Controller

/-! ## Histories -/

/-- the program text that an operation of a history loaded -/
def Applied.text? (e : Applied) : Option String :=
  match e.operation.plain with
  | .load text => some text
  | _ => none

def Applied.flag? (e : Applied) : Option Bool :=
  match e.operation.plain with
  | .setOptimize on => some on
  | _ => none

/-- the delay that it set, if it was accepted -/
def Applied.pace? (e : Applied) : Option Delay :=
  match e.operation.plain, e.reply.toResult with
  | .setDelay millis, .ok () => (Delay.ofMillis millis).toOption
  | _, _ => none

def latest {α : Type} (f : Applied → Option α) (past : List Applied) : Option α := (past.filterMap f).getLast?

theorem latest_snoc {α : Type} (f : Applied → Option α) (past : List Applied) (e : Applied) :
    latest f (past ++ [e]) = (f e).or (latest f past) := by
  rw [latest, List.filterMap_append, List.getLast?_append]
  cases he : f e <;> simp [he, latest]

namespace Settings

/-- the settings of a controller that was made with `config`, after the operations of a history -/
def written (config : Config) (past : List Applied) : Settings where
  config := config
  program := (latest Applied.text? past).getD ""
  optimize := (latest Applied.flag? past).getD config.optimize
  delay := (latest Applied.pace? past).getD config.stepDelay

def after (s : Settings) (e : Applied) : Settings :=
  { s with
    program := e.text?.getD s.program
    optimize := e.flag?.getD s.optimize
    delay := e.pace?.getD s.delay }

/-- what is no setter writes nothing -/
theorem after_eq {s : Settings} {e : Applied} (h : e.operation.isSetter = false) : s.after e = s := by
  unfold Operation.isSetter at h
  unfold after Applied.text? Applied.flag? Applied.pace?
  cases hplain : e.operation.plain <;> simp_all

theorem written_snoc (config : Config) (past : List Applied) (e : Applied) :
    written config (past ++ [e]) = (written config past).after e := by
  simp only [written, after, latest_snoc]
  cases e.text? <;> cases e.flag? <;> cases e.pace? <;> rfl

end Settings

namespace Controller

variable {I L P : Type} [Interpreter I] [Loader L I] [Presenter P] {c d : Controller I L P} {past : List Applied}
  {now : Instant} {op : Operation} {reply : Reply}

/-- a setter that returns has written what it says -/
theorem settings_setter (h : ((perform now op : Drive I L P Reply) c).value = some reply) (hop : op.isSetter = true) :
    ((perform now op : Drive I L P Reply) c).state.settings =
      c.settings.after (applied now op reply c ((perform now op : Drive I L P Reply) c).state) := by
  obtain ⟨reply', hreply, -, hset⟩ := perform_setsOnly now op c hop
  obtain rfl : reply = reply' := Option.some.inj (h.symm.trans hreply)
  unfold Operation.isSetter at hop
  simp only [Settings.after, Applied.text?, Applied.flag?, Applied.pace?, applied]
  cases hplain : op.plain with
  | load text =>
    simp only [hplain, writing] at hset
    rw [hset.2]
    rfl
  | setOptimize on =>
    simp only [hplain, writing] at hset
    rw [hset.2]
    rfl
  | setDelay millis =>
    simp only [hplain, writing] at hset
    cases hdelay : Delay.ofMillis millis with
    | error e =>
      simp only [hdelay, Except.map] at hset
      rw [hset.2, hset.1]
      rfl
    | ok delay =>
      simp only [hdelay, Except.map] at hset
      rw [hset.2, hset.1]
      simp only [hdelay]
      rfl
  | _ => simp [hplain] at hop

/-- **An operation that returns leaves the settings as they were**, but for the one that it set. -/
theorem settings_perform (h : ((perform now op : Drive I L P Reply) c).value = some reply) :
    ((perform now op : Drive I L P Reply) c).state.settings =
      c.settings.after (applied now op reply c ((perform now op : Drive I L P Reply) c).state) := by
  cases hop : op.isSetter with
  | true => exact settings_setter h hop
  | false =>
    rw [Settings.after_eq (by exact hop)]
    exact (heeds_perform now hop c rfl).1

/-- `d` is what `c` came to since, with the history `past` -/
inductive Since (c : Controller I L P) : List Applied → Controller I L P → Prop where
  | refl : Since c [] c
  | perform {past : List Applied} {d : Controller I L P} {reply : Reply} (front : Since c past d) (now : Instant)
      (op : Operation) (returned : ((perform now op : Drive I L P Reply) d).value = some reply) :
      Since c (past ++ [applied now op reply d ((perform now op : Drive I L P Reply) d).state])
        ((perform now op : Drive I L P Reply) d).state
  | poll {past : List Applied} {d : Controller I L P} (front : Since c past d) (now : Instant) :
      Since c past { d with timer := (d.timer.poll now).2 }

/-- what a new controller came to since is reached -/
theorem Since.reached {config : Config} {loader : L} {presenter : P} (h : Since (ofConfig config loader presenter) past c) :
    Reached past c := by
  induction h with
  | refl => exact .new config loader presenter
  | perform front now op returned ih => exact ih.perform now op returned
  | poll front now ih => exact ih.poll now

/-- **Last writer wins.** The settings of a controller are what was written last, and else what it was made with. -/
theorem Since.settings_eq {config : Config} {loader : L} {presenter : P}
    (h : Since (ofConfig config loader presenter) past c) : c.settings = .written config past := by
  induction h with
  | refl => rfl
  | perform front now op returned ih => rw [settings_perform returned, ih, Settings.written_snoc]
  | @poll past d front now ih =>
    rw [← ih]
    exact congrArg (Settings.mk d.config d.program d.optimize) (Timer.poll_delay now d.timer)

omit [Interpreter I] in
/-- what only consists of log records makes no calls -/
theorem heeds_of_deeds {s : Settings} {j : List (Entry I)} (h : deeds j = []) : ∀ e ∈ j, e.heeds s := by
  intro e he
  have hnote := List.filter_eq_nil_iff.1 h e he
  cases e with
  | noted note => trivial
  | _ => simp [Entry.note?] at hnote

/-- **Settings are what was written last, and writing one touches nothing else.** In every run of a controller that was made
with `config`: its settings are the last of each kind that were written, and else those of `config`; the period of an interval
that is laid down is the step delay; every further operation, also where it breaks down, leaves `config` alone and makes its
loader calls and its steps with the settings; and a setter changes what it sets and nothing else, calls neither interpreter
nor presenter, and arms no timer that is off. -/
theorem settings_written {config : Config} {loader : L} {presenter : P}
    (h : Since (ofConfig config loader presenter) past c) :
    c.settings = .written config past ∧
      (∀ schedule interval, c.timer.schedule = some schedule → schedule.interval = some interval →
        interval.period = c.delay) ∧
      ∀ now op,
        (((perform now op : Drive I L P Reply) c).state.config = config ∧
          ∀ e ∈ ((perform now op : Drive I L P Reply) c).journal, e.heeds (.written config past)) ∧
        SetsOnly now op c := by
  have hsettings := h.settings_eq
  have hconfig : c.config = config := congrArg Settings.config hsettings
  refine ⟨hsettings, fun schedule interval hs hi => h.reached.even schedule hs interval hi, ?_⟩
  intro now op
  refine ⟨?_, perform_setsOnly now op c⟩
  cases hop : op.isSetter with
  | true =>
    obtain ⟨reply, hreturned, hsilent, -⟩ := perform_setsOnly now op c hop
    have hnext := congrArg Settings.config (settings_perform hreturned)
    exact ⟨hnext.trans hconfig, heeds_of_deeds hsilent⟩
  | false =>
    obtain ⟨hstate, hentries⟩ := heeds_perform now hop c hsettings
    exact ⟨congrArg Settings.config hstate, hentries⟩

/-- a session that is running keeps its flag until it is set anew, and its program and its schedule likewise: a text is loaded
and the delay changed in the middle of it -/
theorem settings_written_running :
    ∃ (past : List Applied) (c : Controller Player Repertoire Unit),
      Since (ofConfig { optimize := true } ⟨[]⟩ ()) past c ∧
        c.settings = ⟨{ optimize := true }, "+", false, ⟨.ofMillis 20, by decide +kernel⟩⟩ ∧
        c.timer.schedule = some { armedAt := 3 } ∧
        (c.settings = .written { optimize := true } past ∧
          (∀ schedule interval, c.timer.schedule = some schedule → schedule.interval = some interval →
            interval.period = c.delay) ∧
          ∀ now op,
            (((perform now op : Drive Player Repertoire Unit Reply) c).state.config = { optimize := true } ∧
              ∀ e ∈ ((perform now op : Drive Player Repertoire Unit Reply) c).journal,
                e.heeds (.written { optimize := true } past)) ∧
            SetsOnly now op c) := by
  let made : Controller Player Repertoire Unit := ofConfig { optimize := true } ⟨[]⟩ ()
  have hmade : Since made [] made := .refl
  have hstarted := hmade.perform 0 .run rfl
  have hloaded := hstarted.perform 1 (.load "+") rfl
  have hplain := hloaded.perform 2 (.dispatch (.setOptimize false)) rfl
  have hset := hplain.perform 3 (.setDelay 20) rfl
  exact ⟨_, _, hset, rfl, rfl, settings_written hset⟩

end Controller

end StepControl

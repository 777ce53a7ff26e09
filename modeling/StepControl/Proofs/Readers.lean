/-
What the readers of a session's phase get to see.

The clients of a session read the phase that its task published last: the handle when it waits for a phase, subscribers when
they look. A history (`Sight`) has what bears on that, newest first: the turns that applied an intent or a tick, with the
phase after each, and the looks of the handle and of the subscribers. From it alone it can be read off
- which phase is shown (`Sight.shown`), and which phases were published as new (`Sight.published`): one for each turn that
  led to another phase than was shown before;
- how far back a reader has last looked (`Sight.untilWaited`, `Sight.untilLooked`).

`Audience` is a session with its subscribers, and `Audience.Step` one step of it: a turn, something that a client does, or a
look. `Kept` is what every step keeps: the version of the watch is the number of phases published, and the version that a
reader has seen is the number of those published until it last looked.
- `Audience.Kept.step`: every step keeps it, by cases of the steps.
- `Audience.Kept.acknowledged`: what the next turn shows to clients.

Results:
- `Audience.runs_followed`: the published phase is the one after the last turn and never one from the midst of a turn; a new
  version is published where a turn has led to another phase and only there; a reader is told of a change if and only if
  something was published since it last looked, whether or not the phase has meanwhile changed back. When a sender has its
  reply, the phase after its command is published.
- `Audience.runs_followed_resumed`: a reader that looked while the session was running finds it running again, and is told
  that it was not all the while.

Premises: none of the interpreter; the session is one of a controller with some history. Readers look between turns only, as
the task publishes at the end of a turn.
-/
import StepControl.Proofs.Turns

namespace StepControl

open StepControl.Action

/-! ## Histories of sights -/

/-- a thing that bears on what a reader of the published phase gets to see -/
inductive Sight where
  /-- the task applied an intent or a tick, and left its controller in this phase -/
  | turned (phase : Phase)
  /-- the handle looked -/
  | waited
  /-- a reader subscribed -/
  | subscribed
  /-- a subscriber looked; subscribers are counted in the order in which they subscribed -/
  | looked (reader : Nat)
  deriving DecidableEq

namespace Sight

/-- the phase after the last turn -/
def shown (first : Phase) : List Sight → Phase
  | [] => first
  | .turned phase :: _ => phase
  | _ :: past => shown first past

/-- the phases published, newest first: one for each turn that led to another phase than was shown before -/
def published (first : Phase) : List Sight → List Phase
  | [] => []
  | .turned phase :: past =>
    if phase = shown first past then published first past else phase :: published first past
  | _ :: past => published first past

/-- the history until the handle last looked, which at first is nothing -/
def untilWaited : List Sight → List Sight
  | [] => []
  | .waited :: past => past
  | _ :: past => untilWaited past

def subscriptions (history : List Sight) : Nat := history.count .subscribed

/-- the history until a subscriber last looked; one that did not look yet has seen what the handle had when it subscribed -/
def untilLooked (reader : Nat) : List Sight → List Sight
  | [] => []
  | .looked k :: past => if k = reader then past else untilLooked reader past
  | .subscribed :: past => if subscriptions past = reader then untilWaited past else untilLooked reader past
  | _ :: past => untilLooked reader past

variable {first : Phase} {sight : Sight} {past : List Sight} {reader : Nat}

theorem published_turned (first phase : Phase) (past : List Sight) :
    published first (.turned phase :: past) =
      if phase = shown first past then published first past else phase :: published first past := rfl

theorem published_suffix (first : Phase) (sight : Sight) (past : List Sight) :
    published first past <:+ published first (sight :: past) := by
  cases sight with
  | turned phase =>
    rw [published_turned]
    split
    · exact List.suffix_refl _
    · exact List.suffix_cons _ _
  | _ => exact List.suffix_refl _

/-- the phase that is shown is the one published last -/
theorem shown_eq_head (first : Phase) (history : List Sight) :
    shown first history = (published first history).headD first := by
  induction history with
  | nil => rfl
  | cons sight past ih =>
    cases sight with
    | turned phase =>
      rw [published_turned]
      split
      case isTrue h => rw [← ih, ← h]; rfl
      case isFalse => rfl
    | _ => exact ih

/-- nobody who has not subscribed looks -/
theorem untilLooked_of_subscribed (h : reader < subscriptions past) :
    untilLooked reader (.subscribed :: past) = untilLooked reader past :=
  if_neg (Nat.ne_of_gt h)

end Sight

/-! ## Sessions with their readers -/

/-- a session with its subscribers: the version that each of them looked at last, in the order of subscribing -/
structure Audience (I L P : Type) where
  session : Session I L P
  readers : List Nat := []

namespace Audience

open Session (Current Completed Rests Ticketed)
open Sight (shown published untilWaited untilLooked subscriptions)

variable {I L P : Type} [Interpreter I] [Loader L I] [Presenter P]

/-- one step of a session with its readers, with the sight that it is. Only who holds a handle can look through it or
subscribe -/
inductive Step : Audience I L P → List Sight → Audience I L P → Prop where
  | task {s t : Session I L P} {as : List Act} {es : List Command} (step : s.Step as es t) (still : t.seen = s.seen)
      (readers : List Nat) : Step ⟨s, readers⟩ (as.map fun _ => .turned t.controller.phase) ⟨t, readers⟩
  | wait (s : Session I L P) (readers : List Nat) (held : s.abandoned = false) :
      Step ⟨s, readers⟩ [.waited] ⟨{ s with seen := s.watch.version }, readers⟩
  | subscribe (s : Session I L P) (readers : List Nat) (held : s.abandoned = false) :
      Step ⟨s, readers⟩ [.subscribed] ⟨s, readers ++ [s.seen]⟩
  | look (s : Session I L P) (readers : List Nat) (reader : Nat) :
      Step ⟨s, readers⟩ [.looked reader] ⟨s, readers.set reader s.watch.version⟩

inductive Runs (a : Audience I L P) : List Sight → Audience I L P → Prop where
  | refl : Runs a [] a
  | snoc {history sights : List Sight} {b c : Audience I L P} (front : Runs a history b) (last : Step b sights c) :
      Runs a (sights ++ history) c

/-- a reader that looked at version `seen` last, when the history was `earlier`, is told of what was published since -/
structure Told (first : Phase) (earlier history : List Sight) (s : Session I L P) (seen : Nat) : Prop where
  news : ∃ news, published first history = news ++ published first earlier ∧
    s.changed? seen = if s.isAlive then some !news.isEmpty else none
  differs : shown first history ≠ shown first earlier → s.isAlive = true → s.changed? seen = some true

/-- what the session and its readers show of their history -/
structure Followed (first : Phase) (history : List Sight) (a : Audience I L P) : Prop where
  phase : a.session.watch.phase = shown first history
  controller : a.session.controller.phase = shown first history
  whole : a.session.watch.phase ≠ .steppingOnce
  version : a.session.watch.version = (published first history).length
  handle : Told first (untilWaited history) history a.session a.session.seen
  readers : ∀ reader seen, a.readers[reader]? = some seen →
    Told first (untilLooked reader history) history a.session seen

/-! ## The invariant -/

/-- a reader that looked at version `seen` last has seen what was published in the history `earlier` -/
def Saw (first : Phase) (earlier history : List Sight) (seen : Nat) : Prop :=
  seen = (published first earlier).length ∧ published first earlier <:+ published first history

/-- what a step keeps of the history and of what the readers have seen of it -/
structure Kept (first : Phase) (history : List Sight) (a : Audience I L P) : Prop where
  current : Current a.session
  ticketed : Ticketed a.session
  phase : a.session.controller.phase = shown first history
  version : a.session.watch.version = (published first history).length
  handle : Saw first (untilWaited history) history a.session.seen
  count : a.readers.length = subscriptions history
  readers : ∀ reader seen, a.readers[reader]? = some seen → Saw first (untilLooked reader history) history seen

variable {first : Phase} {earlier history sights : List Sight} {a b : Audience I L P} {s t : Session I L P} {seen : Nat}
  {now : Instant}

omit [Interpreter I] [Loader L I] [Presenter P] in
theorem Saw.cons (h : Saw first earlier history seen) (sight : Sight) : Saw first earlier (sight :: history) seen :=
  ⟨h.1, h.2.trans (Sight.published_suffix first sight history)⟩

omit [Interpreter I] [Loader L I] [Presenter P] in
/-- who looks now has seen everything -/
theorem Kept.saw (h : Kept first history a) (sight : Sight) :
    Saw first history (sight :: history) a.session.watch.version :=
  ⟨h.version, Sight.published_suffix first sight history⟩

omit [Interpreter I] [Loader L I] [Presenter P] in
/-- a reader is told whether anything was published since it looked -/
theorem Kept.told (h : Kept first history a) (hsaw : Saw first earlier history seen) :
    Told first earlier history a.session seen := by
  obtain ⟨rfl, news, hnews⟩ := hsaw
  have hlength : a.session.watch.version = news.length + (published first earlier).length := by
    rw [h.version, ← hnews, List.length_append]
  have hchanged : a.session.watch.changedSince (published first earlier).length = !news.isEmpty := by
    rw [Watch.changedSince, hlength]
    cases news <;> simp
  constructor
  · exact ⟨news, hnews.symm, by rw [Session.changed?, hchanged]⟩
  · intro hdiffers halive
    have hne : news ≠ [] := by
      rintro rfl
      refine hdiffers ?_
      rw [Sight.shown_eq_head, Sight.shown_eq_head, ← hnews]
      rfl
    rw [Session.changed?, hchanged, if_pos halive]
    simpa using hne

theorem kept_spawn {past : List Applied} {c : Controller I L P} (hc : Controller.Reached past c)
    (hs : Session.spawn? c = some s) : Kept c.phase [] ⟨s, []⟩ := by
  have hcurrent := Session.current_spawn hc hs
  have hticketed := Session.ticketed_spawn hs
  obtain rfl := Session.spawn?_eq hs
  exact ⟨hcurrent, hticketed, rfl, rfl, ⟨rfl, List.suffix_refl _⟩, rfl, by simp⟩

omit [Interpreter I] [Loader L I] [Presenter P] in
theorem Kept.rests {readers : List Nat} (h : Kept first history ⟨s, readers⟩) (hr : Rests s t) (still : t.seen = s.seen) :
    Kept first history ⟨t, readers⟩ where
  current := hr.current h.current
  ticketed := h.ticketed.rests hr
  phase := hr.phase_eq.trans h.phase
  version := (congrArg Watch.version hr.watch).trans h.version
  handle := by rw [still]; exact h.handle
  count := h.count
  readers := h.readers

/-- a turn that is completed publishes the phase after it, where this is another one -/
theorem Kept.completed {readers : List Nat} {act : Act} {reply : Reply} (h : Kept first history ⟨s, readers⟩)
    (hc : Completed s act reply t) (still : t.seen = s.seen) :
    Kept first (.turned t.controller.phase :: history) ⟨t, readers⟩ where
  current := hc.current h.current
  ticketed := Session.Kinds.ticketed (.completed hc) h.ticketed
  phase := rfl
  version := by
    have hshown : s.watch.phase = shown first history := h.current.published.trans h.phase
    have hversion : s.watch.version = (published first history).length := h.version
    rw [hc.watch, Watch.publish_version, hshown, hversion, Sight.published_turned]
    split <;> rfl
  handle := by rw [still]; exact h.handle.cons _
  count := h.count.trans (by simp [subscriptions])
  readers reader seen hseen := (h.readers reader seen hseen).cons _

omit [Interpreter I] [Loader L I] [Presenter P] in
theorem Kept.wait {readers : List Nat} (h : Kept first history ⟨s, readers⟩) :
    Kept first (.waited :: history) ⟨{ s with seen := s.watch.version }, readers⟩ where
  current := ⟨h.current.steady, h.current.whole, h.current.published⟩
  ticketed := ⟨h.ticketed.order, h.ticketed.given⟩
  phase := h.phase
  version := h.version
  handle := h.saw .waited
  count := h.count.trans (by simp [subscriptions])
  readers reader seen hseen := (h.readers reader seen hseen).cons _

omit [Interpreter I] [Loader L I] [Presenter P] in
/-- a new subscriber has seen what the handle has -/
theorem Kept.subscribe {readers : List Nat} (h : Kept first history ⟨s, readers⟩) :
    Kept first (.subscribed :: history) ⟨s, readers ++ [s.seen]⟩ where
  current := h.current
  ticketed := h.ticketed
  phase := h.phase
  version := h.version
  handle := h.handle.cons .subscribed
  count := by
    have hcount : readers.length = subscriptions history := h.count
    simp [subscriptions, hcount]
  readers reader seen hseen := by
    have hcount : readers.length = subscriptions history := h.count
    rw [List.getElem?_append] at hseen
    split at hseen
    case isTrue hold =>
      rw [Sight.untilLooked_of_subscribed (hcount ▸ hold)]
      exact (h.readers reader seen hseen).cons .subscribed
    case isFalse hnew =>
      obtain ⟨hlast, rfl⟩ : reader - readers.length = 0 ∧ s.seen = seen := by
        simpa [List.getElem?_singleton] using hseen
      have hreader : subscriptions history = reader := by omega
      unfold untilLooked
      rw [if_pos hreader]
      exact h.handle.cons .subscribed

omit [Interpreter I] [Loader L I] [Presenter P] in
theorem Kept.look {readers : List Nat} (h : Kept first history ⟨s, readers⟩) (reader : Nat) :
    Kept first (.looked reader :: history) ⟨s, readers.set reader s.watch.version⟩ where
  current := h.current
  ticketed := h.ticketed
  phase := h.phase
  version := h.version
  handle := h.handle.cons _
  count := by
    have hcount : readers.length = subscriptions history := h.count
    simp [subscriptions, hcount]
  readers k seen hseen := by
    unfold untilLooked
    rw [List.getElem?_set] at hseen
    split
    case isTrue hk =>
      obtain ⟨-, rfl⟩ : reader < readers.length ∧ s.watch.version = seen := by simpa [hk] using hseen
      exact h.saw _
    case isFalse hk =>
      rw [if_neg hk] at hseen
      exact (h.readers k seen hseen).cons _

variable [SoundInterpreter I]

/-- where the interpreter never breaks down, every turn is completed -/
theorem not_broke {act : Act} : ¬ Session.Broke s act t := by
  intro hb
  have hreturns := (Controller.oblivious_perform (L := L) (P := P) act.asked.1 act.asked.2).returns (s.atHand act)
  have hvalue := hb.value
  unfold Session.applying at hvalue
  rw [hvalue] at hreturns
  exact absurd hreturns (by decide)

/-- **Every step keeps the invariant.** -/
theorem Kept.step (h : Kept first history a) (hstep : Step a sights b) : Kept first (sights ++ history) b := by
  cases hstep with
  | task step still readers =>
    cases step.kinds with
    | rests hr => exact h.rests hr still
    | completed hc => exact h.completed hc still
    | broke hb => exact absurd hb not_broke
  | wait s readers held => exact h.wait
  | subscribe s readers held => exact h.subscribe
  | look s readers reader => exact h.look reader

theorem Runs.kept (h : Runs a history b) (ha : Kept first [] a) : Kept first history b := by
  induction h with
  | refl => exact ha
  | snoc _ last ih => exact ih.step last

/-! ## What clients see -/

/-- what the turn of the session `s` in which the task applied `act`, and which left `t`, shows to clients. When the sender
of a command has the reply, the phase after the command is published; and a start over a running session publishes
nothing -/
structure Acknowledged (s : Session I L P) (act : Act) (t : Session I L P) : Prop where
  controller : t.controller = (s.applying act).state
  watch : t.watch = s.watch.publish t.controller.phase
  reply : ∀ now command, act = .dispatch now command → ∃ result,
    (Controller.dispatch now command.intent s.controller).value = some result ∧
      s.reply? command.ticket = none ∧ t.reply? command.ticket = some result
  restart : ∀ now ticket, act = .dispatch now ⟨ticket, .run⟩ → s.controller.phase = .running → t.watch = s.watch

omit [SoundInterpreter I] in
/-- a start over a running session leaves a session running: the old one, where the program does not parse, or the new -/
theorem dispatch_run_running {c : Controller I L P} (h : Controller.Steady c) (hp : c.phase = .running) :
    Yields (Controller.dispatch now .run : Drive I L P (Except Error Unit)) c fun _ d _ => d.phase = .running := by
  rw [Controller.dispatch_eq]
  simp only [yields_bind, yields_map, Controller.perform, Intent.operation]
  refine (gives_read.2 ?_).yields
  refine ((Controller.gives_note _).2 ?_).yields
  rcases h.start_cases with ⟨message, hc⟩ | ⟨j, d, machine, hs⟩ | hbroken
  · exact ((Controller.gives_run_rejected hc now).2 hp).yields
  · exact ((Controller.gives_run_accepted hs.check hs.cleared hs.reset now).2 rfl).yields
  · exact yields_of_none (Controller.run_breaks hbroken)

omit [Interpreter I] [Loader L I] [Presenter P] [SoundInterpreter I] in
/-- a command in the inbox has no reply yet -/
theorem Kept.unanswered {readers : List Nat} {command : Command} {rest : List Command}
    (h : Kept first history ⟨s, readers⟩) (hs : s.status = .alive) (hi : s.inbox = command :: rest) :
    s.reply? command.ticket = none := by
  have hnot : command.ticket ∉ s.replies.map Prod.fst := by
    intro hmem
    have hlt := (List.pairwise_append.1 h.ticketed.order).2.2 command.ticket hmem command.ticket (by simp [hi])
    exact absurd hlt (Nat.lt_irrefl _)
  rw [Session.reply?_of_not_replied hnot, if_pos (by simp [Session.isAlive, hs])]

omit [SoundInterpreter I] in
theorem Kept.acknowledged {readers : List Nat} {act : Act} {reply : Reply} (h : Kept first history ⟨s, readers⟩)
    (hc : Completed s act reply t) : Acknowledged s act t where
  controller := hc.controller
  watch := hc.watch
  reply now command hact := by
    subst hact
    have hvalue := hc.value
    rw [Session.applying_dispatch] at hvalue
    obtain ⟨result, hresult, rfl⟩ := Option.map_eq_some_iff.1 hvalue
    refine ⟨result, hresult, h.unanswered hc.status.1 hc.inbox, ?_⟩
    refine (Session.Kinds.ticketed (.completed hc) h.ticketed).reply?_eq ?_
    rw [hc.replies]
    exact List.mem_append_right _ (List.mem_singleton_self _)
  restart now ticket hact hp := by
    subst hact
    have hvalue := hc.value
    have hcontroller := hc.controller
    rw [Session.applying_dispatch] at hvalue hcontroller
    obtain ⟨result, hresult, -⟩ := Option.map_eq_some_iff.1 hvalue
    have hrunning := dispatch_run_running h.current.steady hp result hresult
    rw [hc.watch, hcontroller, Watch.publish, if_pos]
    rw [hrunning, h.current.published]
    exact hp.symm

/-- **The published phase and its readers.** Whatever the clients of a session and its task do, in whatever order: the
phase shown is the one after the last turn, and each turn that has led to another phase made one new version of it; every
reader is told of a change if and only if something was published since it last looked; and a turn that applies a command
has published the phase after it when the sender gets the reply. -/
theorem runs_followed {past : List Applied} {c : Controller I L P} (hc : Controller.Reached past c)
    (hs : Session.spawn? c = some s) (h : Runs ⟨s, []⟩ history a) :
    Followed c.phase history a ∧
      ∀ now act, a.session.acts now = [act] → Acknowledged a.session act (a.session.turn now).2 := by
  have hkept := h.kept (kept_spawn hc hs)
  have hphase : a.session.watch.phase = shown c.phase history := hkept.current.published.trans hkept.phase
  constructor
  · exact
      { phase := hphase
        controller := hkept.phase
        whole := hkept.current.published ▸ hkept.current.whole
        version := hkept.version
        handle := hkept.told hkept.handle
        readers := fun reader seen hseen => hkept.told (hkept.readers reader seen hseen) }
  · intro now act hacts
    have hkinds := (Session.turn_turned now a.session).kinds
    rw [hacts] at hkinds
    cases hkinds with
    | completed hc => exact hkept.acknowledged hc
    | broke hb => exact absurd hb not_broke

omit [SoundInterpreter I] in
/-- a request that finds the task idle, from the posting to the turn that serves it -/
theorem Runs.request {readers : List Nat} (h : Runs a history ⟨s, readers⟩) (intent : Intent) (now : Instant)
    (held : s.abandoned = false) (idle : s.isAlive = true ∧ s.waiting = [] ∧ s.inbox.length < s.capacity) :
    let asked : Session I L P := { s with tickets := s.tickets + 1, inbox := s.inbox ++ [⟨s.tickets, intent⟩], waiting := [] }
    Runs a ((asked.acts now).map (fun _ => .turned (asked.turn now).2.controller.phase) ++ history)
      ⟨(asked.turn now).2, readers⟩ := by
  intro asked
  have hposted : (s.post intent).2.waiting = [⟨s.tickets, intent⟩] := by
    simp [Session.post, idle.1, idle.2.1]
  have henter : Session.Step (s.post intent).2 [] [⟨s.tickets, intent⟩] asked := .enter idle.2.2 hposted
  have hstill : (asked.turn now).2.seen = asked.seen := (Session.turn_turned now asked).fixed.2
  exact ((h.snoc (.task (.post s intent held) rfl readers)).snoc (.task henter rfl readers)).snoc
    (.task (.turn asked now) hstill readers)

/-- a reader that looked while the session was running finds it running again, and is told that it was not all the while -/
theorem runs_followed_resumed :
    ∃ (s : Session Recital (List Recital) Unit) (history : List Sight) (a : Audience Recital (List Recital) Unit),
      Controller.Reached [] (Controller.ofConfig {} [{}] () : Controller Recital (List Recital) Unit) ∧
        Session.spawn? (Controller.ofConfig {} [{}] ()) = some s ∧ Runs ⟨s, []⟩ history a ∧
        (Followed .idle history a ∧
          ∀ now act, a.session.acts now = [act] → Acknowledged a.session act (a.session.turn now).2) ∧
        history = [.turned .running, .turned .paused, .looked 0, .subscribed, .turned .running] ∧ a.readers = [1] ∧
        shown .idle history = shown .idle (untilLooked 0 history) ∧ a.session.changed? 1 = some true := by
  let s : Session Recital (List Recital) Unit :=
    { controller := Controller.ofConfig {} [{}] (), capacity := 32, watch := { phase := .idle } }
  have hs : Session.spawn? (Controller.ofConfig {} [{}] ()) = some s := rfl
  have hrunning := (Runs.refl (a := ⟨s, []⟩)).request .run 0 rfl (by decide)
  have hlooked := (hrunning.snoc (.subscribe _ _ (by decide +kernel))).snoc (.look _ _ 0)
  have hpaused := hlooked.request .pause 5 (by decide +kernel) (by decide +kernel)
  have hresumed := hpaused.request .resume 7 (by decide +kernel) (by decide +kernel)
  exact ⟨s, _, _, .new _ _ _, hs, hresumed, runs_followed (.new _ _ _) hs hresumed, by decide +kernel, by decide +kernel,
    by decide +kernel, by decide +kernel⟩

end Audience

end StepControl

/-
New sessions, and how they serve.

A session can be made where its controller asks for an inbox that can be made, and nowhere else (`spawn?_isSome_iff`); the
sizes that cannot be made lie at the far end, as zero counts as one. A new session serves whoever sends to it: as long as its
client leaves it to go on, what was sent is what the task applied (`Serving.perform`), each request once and in order, and the
results are the replies to that, unless a due time beyond the clock brings the task down (`spawn_attends`).

- `Session.spawn?_isSome_iff`: which controllers can be handed over.
- `Client.Serving.perform`: what a client sends is what enters the inbox, errand by errand.
- `Client.spawn_attends`: the two together, and that the task is alive, with all that was sent applied and answered, unless its
  timer was armed for a time beyond the clock or the clock has come near its end.
- `greatest_size_refused`: sizes for which no session can be made, and a delay with which one is made but does not answer.

The interpreter never breaks down (`SoundInterpreter`). The size of the inbox that is asked for is arbitrary, and so are the
errands, except that the client keeps its handle and does not shut the session down.
-/
import StepControl.Proofs.Clients
import StepControl.Proofs.Overruns

namespace StepControl

open StepControl.Action

/-! ## Requests and replies in line -/

section

variable {ticket : Nat}

theorem numbered_append (ticket : Nat) (requests more : List Request) :
    numbered ticket (requests ++ more) = numbered ticket requests ++ numbered (ticket + requests.length) more := by
  induction requests generalizing ticket with
  | nil => rfl
  | cons q rest ih => simp [numbered, ih, Nat.add_comm, Nat.add_left_comm]

/-- replies that lie in the order of the tickets are the answers to the requests, one for each -/
theorem answersTo_inOrder {earlier replies : List (Nat × Except Error Unit)} {requests : List Request}
    (hearlier : ∀ p ∈ earlier, p.1 < ticket) (hreplies : replies.map Prod.fst = List.range' ticket requests.length) :
    answersTo (earlier ++ replies) ticket requests = requests.zip (replies.map Prod.snd) := by
  induction requests generalizing ticket earlier replies with
  | nil => rfl
  | cons q rest ih =>
    obtain ⟨⟨first, result⟩, later, rfl, hfirst, hlater⟩ := List.map_eq_cons_iff.1 hreplies
    obtain rfl : first = ticket := hfirst
    have hlookup : (earlier ++ (first, result) :: later).lookup first = some result := by
      refine List.lookup_eq_some_iff.2 ⟨earlier, later, rfl, ?_⟩
      intro p hp
      simpa using Nat.ne_of_gt (hearlier p hp)
    have hnext : ∀ p ∈ earlier ++ [(first, result)], p.1 < first + 1 := by
      intro p hp
      rcases List.mem_append.1 hp with hold | hnew
      · exact Nat.lt_succ_of_lt (hearlier p hold)
      · rw [List.mem_singleton.1 hnew]
        exact Nat.lt_succ_self first
    have hrest := ih hnext hlater
    rw [List.append_assoc, List.singleton_append] at hrest
    rw [answersTo, hlookup, hrest]
    rfl

end

variable {I L P : Type} [Interpreter I] [Loader L I] [Presenter P]

namespace Session

variable {c : Controller I L P} {s t : Session I L P} {as : List Act} {es : List Command}

omit [Interpreter I] [Loader L I] [Presenter P] in
/-- **A controller can be handed over where the inbox that it asks for can be made.** -/
theorem spawn?_isSome_iff (c : Controller I L P) :
    (spawn? c).isSome = true ↔ c.config.channelSize.toNat ≤ maxCapacity := by
  have hone : 1 ≤ maxCapacity := by decide
  unfold spawn?
  dsimp only
  split
  case isTrue hsize => simpa using Nat.le_trans (Nat.le_max_left ..) hsize
  case isFalse hsize => simpa using fun hle => hsize (Nat.max_le.2 ⟨hle, hone⟩)

/-- a task that ended in good order was told to -/
theorem Turned.finished (h : Turned now s as t) (hs : s.status = .finished → s.cancelled = true ∨ s.abandoned = true)
    (ht : t.status = .finished) : t.cancelled = true ∨ t.abandoned = true := by
  cases h with
  | idle status => exact hs ht
  | finish status reason => exact reason.imp_right And.right
  | @serve command rest status going inbox =>
    obtain ⟨-, ⟨-, hcrashed⟩ | ⟨result, -, hsame⟩⟩ := serve_cases now command { s with inbox := rest }
    · simp [hcrashed] at ht
    · exact absurd ((hsame.trans status).symm.trans ht) (by simp)
  | @tick timer status going inbox held poll =>
    cases hvalue : (Controller.tick now { s.controller with timer }).value with
    | none => simp [serveTick_none hvalue] at ht
    | some outcome => simp [serveTick_some hvalue, status] at ht
  | overflow status going inbox held poll => cases ht
  | park status going inbox held => simp [status] at ht

theorem Step.finished (h : Step s as es t) (hs : s.status = .finished → s.cancelled = true ∨ s.abandoned = true)
    (ht : t.status = .finished) : t.cancelled = true ∨ t.abandoned = true := by
  cases h with
  | turn now => exact (turn_turned now s).finished hs ht
  | post intent held => exact hs ht
  | enter room first => exact hs ht
  | look => exact hs ht
  | cancel => exact Or.inl rfl
  | letGo alone => exact Or.inr rfl

theorem Runs.finished (h : Runs s as es t) (hs : s.status = .finished → s.cancelled = true ∨ s.abandoned = true)
    (ht : t.status = .finished) : t.cancelled = true ∨ t.abandoned = true := by
  induction h with
  | refl => exact hs ht
  | snoc _ last ih => exact last.finished ih ht

end Session

def Errand.goesOn : Errand → Bool
  | .shutdown | .letGo => false
  | _ => true

namespace Client

variable {c : Controller I L P} {s : Session I L P} {past : List Applied} {a : Client I L P} {errand : Errand}

/-- once what is sent in an errand is in line, the errand leaves the session to itself, until the clock stands where the errand
leaves it; and it does not go back -/
theorem Sound.passes_perform (h : Sound a) (hgoes : errand.goesOn = true) :
    a.clock ≤ (a.perform errand).clock ∧
      Session.Passes (a.perform errand).clock (a.session.postAll errand.requests) (a.perform errand).session := by
  cases errand with
  | send requests => exact ⟨Nat.le_refl _, Session.passes_settle ..⟩
  | sleep length => exact ⟨Nat.le_add_right .., Session.passes_sleep (Nat.le_add_right ..) _⟩
  | jump length => exact ⟨Nat.le_add_right .., Session.passes_settle ..⟩
  | waitFor target length => exact h.ease.passes_waitFor h.rooted target (Nat.le_add_right ..)
  | look => exact ⟨Nat.le_refl _, .refl ..⟩
  | shutdown => cases hgoes
  | letGo => cases hgoes

/-- a client since its session was `s`: its session goes on, and what entered the inbox is what the client sent -/
structure Serving (s : Session I L P) (a : Client I L P) : Prop where
  sound : Sound a
  held : a.session.cancelled = false ∧ a.session.abandoned = false
  runs : ∃ as es, Session.RunsBy a.clock s as es a.session ∧ (a.session.status = .alive → es = numbered 0 a.asked)

/-- **What a client sends is what enters the inbox**, each request once and in order. -/
theorem Serving.perform (h : Serving s a) (hgoes : errand.goesOn = true) : Serving s (a.perform errand) := by
  have hsound := h.sound.perform errand
  obtain ⟨as, es, hruns, hentered⟩ := h.runs
  obtain ⟨hcancelled, habandoned⟩ := h.held
  obtain ⟨hclock, bs, fs, hpassed, hcancelled', habandoned', hline⟩ := h.sound.passes_perform hgoes
  rw [postAll_eq] at hcancelled' habandoned' hline
  refine ⟨hsound, ⟨hcancelled'.trans hcancelled, habandoned'.trans habandoned⟩, as ++ bs, es ++ fs, ?_, ?_⟩
  · simpa using ((hruns.mono hclock).trans (runsBy_postAll _ errand.requests habandoned)).trans hpassed
  · intro halive
    obtain ⟨hbefore, hfs⟩ := hline halive
    have hs : a.session.status = .alive := hbefore
    have hisAlive : a.session.isAlive = true := by simpa [Session.isAlive] using hs
    have hlater : fs = numbered a.asked.length errand.requests := by
      simpa [hsound.ease.waiting, h.sound.ease.waiting, hisAlive, h.sound.ease.tickets] using hfs
    rw [hentered hs, hlater, asked_perform, numbered_append, Nat.zero_add]

theorem Serving.performAll (h : Serving s a) {errands : List Errand}
    (hgo : ∀ errand ∈ errands, errand.goesOn = true) : Serving s (a.performAll errands) := by
  induction errands generalizing a with
  | nil => exact h
  | cons errand rest ih =>
    have hfirst := h.perform (hgo errand List.mem_cons_self)
    exact ih hfirst fun later hlater => hgo later (List.mem_cons_of_mem errand hlater)

theorem serving_spawn (hc : Controller.Reached past c) (hs : Session.spawn? c = some s) (clock : Instant) :
    Serving s ({ clock, session := s } : Client I L P) where
  sound := sound_spawn hc hs clock
  held := by
    rw [Session.spawn?_eq hs]
    exact ⟨rfl, rfl⟩
  runs := ⟨[], [], .refl, fun _ => rfl⟩

/-- nobody told the task to end: where it did, it broke down -/
theorem Serving.crashed (h : Serving s a) (hs : s.status = .alive) (hover : a.session.status ≠ .alive) :
    a.session.status = .crashed := by
  obtain ⟨as, es, hruns, -⟩ := h.runs
  obtain ⟨hgoing, hheld⟩ := h.held
  cases hstatus : a.session.status with
  | alive => exact absurd hstatus hover
  | finished =>
    have htold := hruns.runs.finished (fun hfinished => by simp [hs] at hfinished) hstatus
    simp [hgoing, hheld] at htold
  | crashed => rfl

/-- a session with this history attends to a client that sent it `sent`, where its task had a controller do `as` that was `c`
when it was handed over -/
structure Attended (c : Controller I L P) (as : List Act) (history : List Applied) (sent : List Request)
    (a : Client I L P) : Prop where
  /-- the task is alive, unless its timer was armed for a time beyond the clock, or the clock has come near its end -/
  alive : a.session.status ≠ .alive → (∃ e ∈ history, e.ArmsBeyond) ∨ a.session.controller.delay.Overshoots a.clock
  /-- what was sent was applied, each request once and in order -/
  applied : a.session.status = .alive → dispatched as = numbered 0 sent
  /-- the replies are what came of all that was done -/
  effect : (replay as : Drive I L P _).Gives c fun results _ _ => results = a.session.replies
  /-- each request has its own reply -/
  answered : a.session.status = .alive →
    a.session.replies.map Prod.fst = List.range sent.length ∧ a.results = sent.zip (a.session.replies.map Prod.snd)

variable [SoundInterpreter I]

/-- **Every controller whose inbox can be made is handed over, and its session attends to whoever sends to it.** The inbox has
room for one command at least. -/
theorem spawn_attends (hc : Controller.Reached past c) :
    ((Session.spawn? c).isSome = true ↔ c.config.channelSize.toNat ≤ Session.maxCapacity) ∧
      ∀ s, Session.spawn? c = some s →
        s.controller = c ∧ s.inbox = [] ∧ s.capacity = max c.config.channelSize.toNat 1 ∧
          ∀ clock errands, (∀ errand ∈ errands, errand.goesOn = true) →
            let a := ({ clock, session := s } : Client I L P).performAll errands
            ∃ as es since, Session.RunsBy a.clock s as es a.session ∧ since.map Applied.asked = as.map Act.asked ∧
              Controller.Reached (past ++ since) a.session.controller ∧
              Attended c as (past ++ since) (errands.flatMap Errand.requests) a := by
  refine ⟨Session.spawn?_isSome_iff c, fun s hs => ?_⟩
  have hnew := Session.spawn?_eq hs
  have hcontroller : s.controller = c := by rw [hnew]
  have hstarted : s.status = .alive := by rw [hnew]
  refine ⟨hcontroller, by rw [hnew], by rw [hnew], ?_⟩
  intro clock errands hgo
  have hserving := (serving_spawn hc hs clock).performAll hgo
  have hasked : (({ clock, session := s } : Client I L P).performAll errands).asked = errands.flatMap Errand.requests :=
    asked_performAll _ errands
  generalize ({ clock, session := s } : Client I L P).performAll errands = a at hserving hasked ⊢
  obtain ⟨as, es, hruns, hentered⟩ := hserving.runs
  obtain ⟨since, hsince, hreached⟩ := hruns.runs.history (hcontroller ▸ hc)
  have hserves := hruns.runs.serves hs
  refine ⟨as, es, since, hruns, hsince, hreached, ?_, ?_, ?_, ?_⟩
  · intro hover
    exact hruns.crashed_overshoots (by simp [hstarted]) (hserving.crashed hstarted hover) hreached
  · intro halive
    obtain ⟨rest, hes, hrest⟩ := hserves.fifo
    have hnone : rest = [] := by
      rw [hrest (by simpa [Session.isAlive] using halive), hserving.sound.ease.inbox]
    rw [← hasked, ← hentered halive, hes, hnone, List.append_nil]
  · exact hserves.effect.imp fun _ _ _ heffect => heffect.1
  · intro halive
    have hreplied := hserving.sound.replied halive
    have hearlier : ∀ p ∈ ([] : List (Nat × Except Error Unit)), p.1 < 0 := by simp
    rw [← hasked]
    refine ⟨hreplied, ?_⟩
    calc
      a.results = answersTo a.session.replies 0 a.asked := hserving.sound.results
      _ = a.asked.zip (a.session.replies.map Prod.snd) :=
        answersTo_inOrder hearlier (hreplied.trans List.range_eq_range')

/-- a session whose inbox has the least size, asked for a start and a stop at once -/
theorem spawn_attends_least :
    let c : Controller Recital (List Recital) Unit := Controller.ofConfig { channelSize := 0 } [{}] ()
    let errands : List Errand := [.send [{ intent := .run }, { intent := .stop }], .sleep 1000]
    ∃ s, Controller.Reached [] c ∧ Session.spawn? c = some s ∧ (∀ errand ∈ errands, errand.goesOn = true) ∧
      let a := ({ clock := 0, session := s } : Client Recital (List Recital) Unit).performAll errands
      (∃ as es since, Session.RunsBy a.clock s as es a.session ∧ since.map Applied.asked = as.map Act.asked ∧
        Controller.Reached ([] ++ since) a.session.controller ∧
        Attended c as ([] ++ since) (errands.flatMap Errand.requests) a) ∧
      a.session.status = .alive ∧ ¬ a.session.controller.delay.Overshoots a.clock := by
  intro c errands
  have hgo : ∀ errand ∈ errands, errand.goesOn = true := by decide
  obtain ⟨-, hattends⟩ := spawn_attends (c := c) (.new _ _ _)
  obtain ⟨-, -, -, hattends⟩ := hattends _ rfl
  exact ⟨_, .new _ _ _, rfl, hgo, hattends 0 errands hgo, by decide +kernel, by decide +kernel⟩

end Client

/-- **An inbox of the greatest size cannot be made**, nor of any size above the greatest capacity; and where it can be made, a
session whose timer is set for a time beyond the clock answers nothing any more. -/
theorem greatest_size_refused :
    (Session.spawn? (Controller.ofConfig { channelSize := 18446744073709551615 } [{}] () :
      Controller Recital (List Recital) Unit)).isSome = false ∧
    (Session.spawn? (Controller.ofConfig { channelSize := 2305843009213693952 } [{}] () :
      Controller Recital (List Recital) Unit)).isSome = false ∧
    ((Session.spawn? (Controller.ofConfig { stepDelay := .longest } [{}] () :
      Controller Recital (List Recital) Unit)).map fun s =>
        ((({ session := s } : Client Recital (List Recital) Unit).performAll
          [.send [{ intent := .run }], .send [{ intent := .stop }]]).results.map Prod.snd)) =
      some [.ok (), .error .sessionClosed] := by
  decide +kernel

end StepControl

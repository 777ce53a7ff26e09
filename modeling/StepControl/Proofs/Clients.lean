/-
Clients of a session on the virtual clock.

A client sends intents, one or several at once, lets time pass, waits for phases and looks at what is published (`Errand`);
it keeps the results, and what it saw (`Client`). The clock stands still while the task can work, and moves on when the
client lets time pass. A jump moves it at once, and the task works at the later instant only.

Between two errands the session of a client is at ease, and has replied to all that was asked as long as its task is alive,
so that a result, once there, does not change any more (`Sound`).

Results:
- `Client.Sound.perform`: clients stay sound, whatever they do.
- `Client.sound_spawn`: a client of a new session is sound.
- `Client.Together.perform` / `Client.Together.performAll`: two clients with sessions in step stay together whatever they
  both do, if what they send is the same: at the same instants, with the same glances.
- `Client.Sound.together_parts`: a client that sleeps twice stays together with one that sleeps once for the whole time.

Helpers on tickets: requests become commands in the order of sending (`numbered`, `postAll_eq`), and their results are
looked up under their tickets (`answersTo`), where later replies do not count (`answersTo_append`, `Sound.results_led`).

Premises: none of the interpreter, the loader or the presenter. Lengths of time are arbitrary numbers of nanoseconds.
-/
import StepControl.Proofs.Sleeping

namespace StepControl

open StepControl.Action

/-! ## Errands -/

/-- an intent that a client sends; those that are inserted into a run are extra -/
structure Request where
  intent : Intent
  extra : Bool := false
  deriving DecidableEq, Repr

/-- what a client of a session does; lengths are in nanoseconds -/
inductive Errand where
  /-- send intents all at once and wait for the answers; the task runs also when there are none -/
  | send (requests : List Request)
  /-- let time pass -/
  | sleep (length : Nat)
  /-- let time pass at once -/
  | jump (length : Nat)
  | waitFor (target : Phase) (length : Nat)
  | look
  | shutdown
  /-- let go of the handle -/
  | letGo
  deriving DecidableEq, Repr

def Errand.requests : Errand → List Request
  | .send requests => requests
  | _ => []

/-- what a client sees of its session -/
structure Glance where
  moment : Instant
  watch : Watch
  alive : Bool
  deriving DecidableEq, Repr

structure Client (I L P : Type) where
  clock : Instant := 0
  session : Session I L P
  /-- the results of all that was sent, in the order of sending -/
  results : List (Request × Except Error Unit) := []
  waits : List Session.Waited := []
  glances : List Glance := []

variable {I L P : Type}

/-- the results that requests get with tickets from `ticket` on; a request without a reply learns that the session is
closed -/
def answersTo (replies : List (Nat × Except Error Unit)) (ticket : Nat) : List Request → List (Request × Except Error Unit)
  | [] => []
  | q :: rest => (q, (replies.lookup ticket).getD (.error .sessionClosed)) :: answersTo replies (ticket + 1) rest

def Session.postAll (requests : List Request) (s : Session I L P) : Session I L P :=
  requests.foldl (fun s q => (s.post q.intent).2) s

variable [Interpreter I] [Loader L I] [Presenter P]

namespace Client

def perform (a : Client I L P) : Errand → Client I L P
  | .send requests =>
    let ran := (a.session.postAll requests).settle a.clock
    { a with session := ran, results := a.results ++ answersTo ran.replies a.session.tickets requests }
  | .sleep length => { a with clock := a.clock + length, session := a.session.sleep a.clock (a.clock + length) }
  | .jump length => { a with clock := a.clock + length, session := a.session.settle (a.clock + length) }
  | .waitFor target length =>
    let waited := a.session.waitFor target a.clock (a.clock + length)
    { a with clock := waited.2.1, session := waited.2.2, waits := a.waits ++ [waited.1] }
  | .look => { a with glances := a.glances ++ [⟨a.clock, a.session.watch, a.session.isAlive⟩] }
  | .shutdown => { a with session := (a.session.shutdown a.clock).2 }
  | .letGo => { a with session := a.session.abandon a.clock }

def performAll (a : Client I L P) (errands : List Errand) : Client I L P := errands.foldl perform a

end Client

/-! ## Tickets -/

/-- the requests as commands, with tickets from `ticket` on -/
def numbered (ticket : Nat) : List Request → List Command
  | [] => []
  | q :: rest => ⟨ticket, q.intent⟩ :: numbered (ticket + 1) rest

section

omit [Interpreter I] [Loader L I] [Presenter P]

variable {replies more : List (Nat × Except Error Unit)} {ticket : Nat}

@[simp] theorem map_numbered (ticket : Nat) (requests : List Request) :
    (numbered ticket requests).map Command.intent = requests.map Request.intent := by
  induction requests generalizing ticket with
  | nil => rfl
  | cons q rest ih => simp [numbered, ih]

@[simp] theorem length_numbered (ticket : Nat) (requests : List Request) :
    (numbered ticket requests).length = requests.length := by
  have hlength := congrArg List.length (map_numbered ticket requests)
  rwa [List.length_map, List.length_map] at hlength

theorem postAll_eq (requests : List Request) (s : Session I L P) :
    s.postAll requests =
      { s with
        tickets := s.tickets + requests.length
        waiting := if s.isAlive then s.waiting ++ numbered s.tickets requests else s.waiting } := by
  induction requests generalizing s with
  | nil => simp [Session.postAll, numbered]
  | cons q rest ih =>
    have hfirst : s.postAll (q :: rest) = (s.post q.intent).2.postAll rest := rfl
    have halive : (s.post q.intent).2.isAlive = s.isAlive := rfl
    rw [hfirst, ih, halive]
    cases hs : s.isAlive <;> simp [Session.post, hs, numbered, Nat.add_comm, Nat.add_left_comm]

theorem answersTo_append (replies : List (Nat × Except Error Unit)) (ticket : Nat) (requests more : List Request) :
    answersTo replies ticket (requests ++ more) =
      answersTo replies ticket requests ++ answersTo replies (ticket + requests.length) more := by
  induction requests generalizing ticket with
  | nil => rfl
  | cons q rest ih => simp [answersTo, ih, Nat.add_comm, Nat.add_left_comm]

theorem map_answersTo (replies : List (Nat × Except Error Unit)) (ticket : Nat) (requests : List Request) :
    (answersTo replies ticket requests).map Prod.fst = requests := by
  induction requests generalizing ticket with
  | nil => rfl
  | cons q rest ih => simp [answersTo, ih]

/-- later replies are not the answers to tickets that were replied to before -/
theorem answersTo_more (replies more : List (Nat × Except Error Unit)) (requests : List Request)
    (hreplied : ∀ k, k < requests.length → ticket + k ∈ replies.map Prod.fst) :
    answersTo (replies ++ more) ticket requests = answersTo replies ticket requests := by
  induction requests generalizing ticket with
  | nil => rfl
  | cons q rest ih =>
    have hfirst := hreplied 0 (by simp)
    have hrest : ∀ k, k < rest.length → ticket + 1 + k ∈ replies.map Prod.fst := by
      intro k hk
      have hlater := hreplied (k + 1) (by simpa using hk)
      rwa [Nat.add_comm k 1, ← Nat.add_assoc] at hlater
    have hlookup : (replies ++ more).lookup ticket = replies.lookup ticket := by
      rw [List.lookup_append]
      cases hnone : replies.lookup ticket with
      | some result => rfl
      | none =>
        obtain ⟨e, he, rfl⟩ := List.mem_map.1 hfirst
        exact absurd (List.lookup_eq_none_iff.1 hnone e he) (by simp)
    rw [answersTo, answersTo, hlookup, ih hrest]

end

/-! ## What a client knows -/

namespace Client

variable {build : String → I} {c : Controller I L P} {s t : Session I L P} {past : List Applied} {a b : Client I L P}
  {requests : List Request} {errand : Errand} {n : Nat}

def asked (a : Client I L P) : List Request := a.results.map Prod.fst

/-- the client's session is at ease, has replied to all that was asked as long as its task is alive, and gave the results
that the client has -/
structure Sound (a : Client I L P) : Prop where
  ease : Session.AtEase a.asked.length a.session
  rooted : Session.Rooted a.session
  ticketed : Session.Ticketed a.session
  whole : a.session.status = .alive → a.session.line = List.range a.session.tickets
  results : a.results = answersTo a.session.replies 0 a.asked

theorem Sound.replied (h : Sound a) (halive : a.session.status = .alive) :
    a.session.replies.map Prod.fst = List.range a.asked.length := by
  have hwhole := h.whole halive
  rw [h.ease.tickets, Session.line, h.ease.inbox, h.ease.waiting] at hwhole
  simpa using hwhole

/-- replies that came since leave the results as they are -/
theorem Sound.results_led (h : Sound a) (hlead : Session.Leads a.session t) :
    answersTo t.replies 0 a.asked = a.results := by
  obtain ⟨as, es, hruns⟩ := hlead
  rw [h.results]
  by_cases halive : a.session.status = .alive
  · obtain ⟨more, hmore⟩ := hruns.replies_prefix
    rw [← hmore]
    refine answersTo_more _ _ _ fun k hk => ?_
    rw [h.replied halive]
    simpa using hk
  · rw [(hruns.over halive).2]

/-- whatever leads the session on without a request keeps the client sound -/
theorem Sound.led (h : Sound a) (hlead : Session.Leads a.session t) (hease : Session.AtEase a.asked.length t)
    (hsession : b.session = t) (hresults : b.results = a.results) : Sound b := by
  subst hsession
  have hasked : b.asked = a.asked := congrArg (List.map Prod.fst) hresults
  have hkept := h.results_led hlead
  have hrooted := h.rooted.leads hlead
  obtain ⟨as, es, hruns⟩ := hlead
  refine ⟨hasked ▸ hease, hrooted, hruns.ticketed h.ticketed, hruns.whole h.whole, ?_⟩
  rw [hasked, hresults, hkept]

/-- sending is a run in which nothing is applied, and nothing enters the inbox yet -/
theorem runsBy_postAll (horizon : Instant) (requests : List Request) (held : s.abandoned = false) :
    Session.RunsBy horizon s [] [] (s.postAll requests) := by
  induction requests generalizing s with
  | nil => exact .refl
  | cons q rest ih =>
    have hfirst : Session.RunsBy horizon s [] [] (s.post q.intent).2 := .aside .refl (.post s q.intent held) rfl rfl
    exact hfirst.trans (ih held)

omit [Interpreter I] [Loader L I] [Presenter P] in
/-- what is sent to a session at ease is in line, unless the task is over -/
theorem tidy_postAll (h : Session.AtEase n s) (requests : List Request) :
    Session.Tidy (n + requests.length) (s.postAll requests) ∧ (s.postAll requests).inbox = [] := by
  rw [postAll_eq]
  refine ⟨⟨fun hover => ⟨h.inbox, ?_⟩, h.going, h.room, by simp [h.tickets]⟩, h.inbox⟩
  have hdead : s.isAlive = false := by simpa [Session.isAlive] using hover
  simp [hdead, h.waiting]

theorem asked_perform (a : Client I L P) (errand : Errand) :
    (a.perform errand).asked = a.asked ++ errand.requests := by
  cases errand with
  | send requests => simp [asked, Client.perform, map_answersTo, Errand.requests]
  | _ => exact (List.append_nil _).symm

theorem asked_performAll (a : Client I L P) (errands : List Errand) :
    (a.performAll errands).asked = a.asked ++ errands.flatMap Errand.requests := by
  induction errands generalizing a with
  | nil => exact (List.append_nil _).symm
  | cons errand rest ih =>
    calc
      ((a.perform errand).performAll rest).asked
        = (a.perform errand).asked ++ rest.flatMap Errand.requests := ih (a.perform errand)
      _ = a.asked ++ (errand :: rest).flatMap Errand.requests := by
        rw [asked_perform, List.append_assoc, List.flatMap_cons]

/-- what a task that is over is asked is not taken in -/
theorem Sound.send_over (h : Sound a) (hover : a.session.status ≠ .alive) (requests : List Request) :
    (a.perform (.send requests)).session = { a.session with tickets := a.session.tickets + requests.length } := by
  have hdead : a.session.isAlive = false := by simpa [Session.isAlive] using hover
  have hposted : a.session.postAll requests = { a.session with tickets := a.session.tickets + requests.length } := by
    rw [postAll_eq, hdead]
    rfl
  rw [Client.perform, hposted]
  exact Session.rounds_over (s := { a.session with tickets := a.session.tickets + requests.length }) hover h.ease.inbox
    h.ease.waiting a.clock _

theorem Sound.send (h : Sound a) (requests : List Request) : Sound (a.perform (.send requests)) := by
  have hasked := asked_perform a (.send requests)
  obtain ⟨htidy, hinbox⟩ := tidy_postAll h.ease requests
  have hease := htidy.rounds hinbox a.clock (Nat.le_succ _)
  rw [← List.length_append, ← show _ = a.asked ++ requests from hasked] at hease
  have hresults : answersTo (a.perform (.send requests)).session.replies 0 a.asked = a.results →
      (a.perform (.send requests)).results =
        answersTo (a.perform (.send requests)).session.replies 0 (a.perform (.send requests)).asked := by
    intro hold
    rw [hasked, answersTo_append, hold, Nat.zero_add, ← h.ease.tickets]
    rfl
  by_cases halive : a.session.status = .alive
  · have hlead : Session.Leads a.session (a.perform (.send requests)).session :=
      .trans ⟨[], [], (runsBy_postAll a.clock requests (h.ease.going halive).2).runs⟩ (Session.leads_settle ..)
    have hkept := h.results_led hlead
    have hrooted := h.rooted.leads hlead
    obtain ⟨as, es, hruns⟩ := hlead
    exact ⟨hease, hrooted, hruns.ticketed h.ticketed, hruns.whole h.whole, hresults hkept⟩
  · have hsame := h.send_over halive requests
    have hover : (a.perform (.send requests)).session.status ≠ .alive := by rwa [hsame]
    refine ⟨hease, fun hback => absurd hback hover, ?_, fun hback => absurd hback hover, hresults ?_⟩
    · rw [hsame]
      exact ⟨h.ticketed.order, fun ticket hmem => Nat.lt_add_right _ (h.ticketed.given ticket hmem)⟩
    · rw [hsame]
      exact h.results.symm

/-- **Clients stay sound**, whatever they do. -/
theorem Sound.perform (h : Sound a) (errand : Errand) : Sound (a.perform errand) := by
  cases errand with
  | send requests => exact h.send requests
  | sleep length => exact h.led (Session.leads_sleep ..) (h.ease.runInstants _ _ _ _) rfl rfl
  | jump length => exact h.led (Session.leads_settle ..) (h.ease.settle _) rfl rfl
  | waitFor target length => exact h.led (Session.leads_waitFor ..) (h.ease.waitFor ..) rfl rfl
  | look => exact h.led (.refl _) h.ease rfl rfl
  | shutdown => exact h.led (Session.leads_shutdown ..) (h.ease.shutdown _) rfl rfl
  | letGo => exact h.led (Session.leads_abandon _ h.ease.waiting) (h.ease.abandon _) rfl rfl

theorem Sound.performAll (h : Sound a) (errands : List Errand) : Sound (a.performAll errands) := by
  induction errands generalizing a with
  | nil => exact h
  | cons errand rest ih => exact ih (h.perform errand)

/-- a client whose session is new -/
theorem sound_spawn (hc : Controller.Reached past c) (hs : Session.spawn? c = some s) (clock : Instant) :
    Sound ({ clock, session := s } : Client I L P) := by
  have hticketed := Session.ticketed_spawn hs
  obtain rfl := Session.spawn?_eq hs
  refine ⟨⟨⟨fun hover => absurd rfl hover, fun _ => ⟨rfl, rfl⟩, ?_, rfl⟩, rfl, rfl⟩, fun _ => ⟨past, hc⟩, hticketed,
    fun _ => rfl, rfl⟩
  exact Nat.lt_of_lt_of_le Nat.one_pos (Nat.le_max_right ..)

/-! ## Two clients -/

/-- the clients are at the same instant with sessions in step, and saw the same -/
structure Together (build : String → I) (r : Nat → Option Nat) (a b : Client I L P) : Prop where
  clock : a.clock = b.clock
  paired : Session.Paired build r a.session b.session
  waits : a.waits = b.waits
  glances : a.glances = b.glances

variable {r : Nat → Option Nat}

omit [Presenter P] in
theorem Together.symm (h : Together build some a b) : Together build some b a :=
  ⟨h.clock.symm, h.paired.symm, h.waits.symm, h.glances.symm⟩

/-- **Clients stay together**, whatever they both do, if what they send is the same. -/
theorem Together.perform (h : Together build r a b)
    (hsent : Session.Paired build r (a.session.postAll errand.requests) (b.session.postAll errand.requests)) :
    Together build r (a.perform errand) (b.perform errand) := by
  obtain ⟨now, s, results, waits, glances⟩ := a
  obtain ⟨now', t, results', waits', glances'⟩ := b
  obtain rfl : now = now' := h.clock
  obtain rfl : waits = waits' := h.waits
  obtain rfl : glances = glances' := h.glances
  have hpaired : Session.Paired build r s t := h.paired
  cases errand with
  | send requests => exact ⟨rfl, hsent.settle now, rfl, rfl⟩
  | sleep length => exact ⟨rfl, hpaired.sleep now (now + length), rfl, rfl⟩
  | jump length => exact ⟨rfl, hpaired.settle (now + length), rfl, rfl⟩
  | waitFor target length =>
    obtain ⟨hwaited, hinstant, hnext⟩ := hpaired.waitFor target now (now + length)
    exact ⟨hinstant, hnext, by simp [Client.perform, hwaited], rfl⟩
  | look =>
    refine ⟨rfl, hpaired, rfl, ?_⟩
    have hwatch : s.watch = t.watch := hpaired.watch
    simp only [Client.perform, hwatch, hpaired.isAlive_eq]
  | shutdown => exact ⟨rfl, hpaired.shutdown now, rfl, rfl⟩
  | letGo => exact ⟨rfl, hpaired.abandon now, rfl, rfl⟩

/-- clients that were asked the same, and are together, stay so -/
theorem Together.performAll (h : Together build some a b) (ha : Sound a) (hb : Sound b) (hasked : a.asked = b.asked)
    (errands : List Errand) : Together build some (a.performAll errands) (b.performAll errands) := by
  induction errands generalizing a b with
  | nil => exact h
  | cons errand rest ih =>
    have hpaired := h.paired
    have hsent : Session.Paired build some (a.session.postAll errand.requests) (b.session.postAll errand.requests) := by
      rw [postAll_eq, postAll_eq, ha.ease.tickets, hb.ease.tickets, hasked, hpaired.isAlive_eq]
      refine { hpaired with waiting := ?_ }
      dsimp only
      split
      · exact List.rel_append hpaired.waiting (Session.forall₂_same_refl _)
      · exact hpaired.waiting
    have hnext : (a.perform errand).asked = (b.perform errand).asked := by
      rw [asked_perform, asked_perform, hasked]
    exact ih (h.perform hsent) (ha.perform errand) (hb.perform errand) hnext

/-- **A stretch of time has parts**: who sleeps all the while is together with who sleeps twice. -/
theorem Sound.together_parts (h : Sound a) (hself : Session.Paired build some a.session a.session) (length : Nat) {more : Nat}
    (hmore : 0 < more) :
    Together build some ((a.perform (.sleep length)).perform (.sleep more)) (a.perform (.sleep (length + more))) := by
  have hclock : a.clock + length + more = a.clock + (length + more) := Nat.add_assoc ..
  have hparts := h.ease.sleep_parts h.rooted hself (Nat.le_add_right a.clock length) (Nat.lt_add_of_pos_right hmore)
  refine ⟨hclock, ?_, rfl, rfl⟩
  rw [Client.perform, Client.perform, Client.perform, ← hclock]
  exact hparts

end Client

end StepControl

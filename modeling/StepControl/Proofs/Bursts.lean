/-
Intents sent all at once, through an inbox of any size.

Where the inbox is too small for all that is sent, the task alternates with the senders: it drains what came in, asks its
timer for a tick, and then the next senders find room. The size of the inbox would show if asking made a difference. It does
not:
- `Controller.Reached.dispatch_laid`: asking only lays the interval down, where no tick is due, and a controller does the
  same whether its interval was laid down before or is laid down later;
- `Controller.TimerTold.quiet`: no operation makes a tick due at the instant at which it is carried out, so there is none to
  take between the intents either.

Results:
- `Session.drain_replay`: to drain a row of commands is to dispatch them one after the other.
- `Session.burst_row`: a burst comes to what its intents come to when they are dispatched one after the other, each once and
  with no tick in between, for every size of the inbox: the same results and replies, the same controller, the same calls
  and announcements.
- `Session.burst_row_narrow`: a start and a stop through an inbox that has room for one command.
- `Session.burst_beyond_shows`: where an intent sets the timer for a time beyond the clock the size does show. The task
  breaks down as soon as it has drained its inbox.

Premises: no tick is due when the burst is sent, nothing is on its way to the task, and no intent of the burst leaves the
timer in need of an instant that the clock cannot name (`Timer.Beyond`). The interpreter never breaks down.
-/
import StepControl.Proofs.Declining
import StepControl.Proofs.Spawning

namespace StepControl

open StepControl.Action

/-! ## Controllers that agree once they are laid down -/

namespace Timer

variable {t u : Timer} {now : Instant}

@[simp] theorem unlaid_laid (t : Timer) : t.laid.unlaid = t.unlaid := by
  cases hs : t.schedule with
  | none => simp [laid, unlaid, hs]
  | some s => simp [laid, unlaid, hs]

theorem eq_of_off (ht : t.schedule = none) (hu : u.schedule = none) (hdelay : t.delay = u.delay) : t = u := by
  cases t
  cases u
  simp_all

/-- a timer that has just been armed has no tick to give yet -/
theorem poll_armed (h : t.schedule = some { armedAt := now }) : (t.poll now).1 ≠ .ready := by
  intro hready
  have hdue : now + t.delay.total ≤ now := (armedAt_of_schedule h).le_of_ready hready
  exact Nat.not_le_of_lt (Nat.lt_add_of_pos_right t.delay.positive) hdue

end Timer

variable {I L P : Type} [Interpreter I] [Loader L I] [Presenter P] {now : Instant}

namespace Controller

variable {c d c' d' : Controller I L P} {past past' : List Applied} {e : Applied}

def laid (c : Controller I L P) : Controller I L P := { c with timer := c.timer.laid }

omit [Interpreter I] [Loader L I] [Presenter P] in
theorem unlaid_eq (h : c.laid = d.laid) : c.unlaid = d.unlaid := by
  have hsame : c.laid.unlaid = d.laid.unlaid := congrArg unlaid h
  simpa [laid, unlaid] using hsame

omit [Interpreter I] [Loader L I] [Presenter P] in
theorem phase_eq (h : c.unlaid = d.unlaid) : c.phase = d.phase := by
  have hsame := congrArg Controller.phase h
  exact hsame

omit [Interpreter I] [Loader L I] [Presenter P] in
theorem delay_eq (h : c.unlaid = d.unlaid) : c.delay = d.delay := by
  have hsame := congrArg Controller.delay h
  exact hsame

omit [Interpreter I] [Loader L I] [Presenter P] in
theorem laid_eq (h : c.unlaid = d.unlaid) (htimer : c.timer.laid = d.timer.laid) : c.laid = d.laid := by
  cases c
  cases d
  simp_all [unlaid, laid]

omit [Interpreter I] [Loader L I] [Presenter P] in
theorem Calm.of_laid (h : d.Calm now) (hsame : c.laid = d.laid) : c.Calm now := by
  have htimer : c.timer.laid = d.timer.laid := congrArg Controller.timer hsame
  rwa [Calm, (Timer.poll_eq htimer now).1]

omit [Interpreter I] [Loader L I] [Presenter P] in
/-- an operation that is said the same of does the same to timers that agree once they are laid down -/
theorem TimerTold.laid_eq (h : TimerTold c c' e) (h' : TimerTold d d' e) (hc : Steady c') (hd : Steady d')
    (htimer : c.timer.laid = d.timer.laid) (hsame : c'.unlaid = d'.unlaid) : c'.timer.laid = d'.timer.laid := by
  have hphase := phase_eq hsame
  have hdelay : c'.timer.delay = d'.timer.delay := delay_eq hsame
  by_cases hp : c'.phase = .running
  · cases harms : e.arms with
    | true =>
      have hleft := (h.armed harms).2
      have hright := (h'.armed harms).2
      unfold Timer.laid
      rw [hleft, hright, hdelay]
    | false => rw [(h.kept harms hp).2, (h'.kept harms (hphase ▸ hp)).2, htimer]
  · rw [Timer.eq_of_off (hc.timer_off hp) (hd.timer_off (hphase ▸ hp)) hdelay]

omit [Interpreter I] [Loader L I] [Presenter P] in
/-- **No operation makes a tick due at the instant at which it is carried out.** -/
theorem TimerTold.quiet (h : TimerTold c d e) (hd : Steady d) (hquiet : (c.timer.poll e.moment).1 ≠ .ready) :
    (d.timer.poll e.moment).1 ≠ .ready := by
  by_cases hp : d.phase = .running
  · cases harms : e.arms with
    | true => exact Timer.poll_armed (h.armed harms).2
    | false => rwa [(h.kept harms hp).2]
  · exact mt hd.running_of_ready hp

variable [SoundInterpreter I]

/-- what an intent does that is dispatched to a reached controller: it has a result, and is one operation more -/
theorem Reached.dispatched (h : Reached past c) (now : Instant) (intent : Intent) :
    ∃ result, (dispatch now intent c).value = some result ∧
      Reached (past ++ [applied now (.dispatch intent) (.result result) c (dispatch now intent c).state])
        (dispatch now intent c).state ∧
      TimerTold c (dispatch now intent c).state
        (applied now (.dispatch intent) (.result result) c (dispatch now intent c).state) := by
  obtain ⟨result, hresult⟩ := Option.isSome_iff_exists.1 ((oblivious_dispatch now intent).returns c)
  refine ⟨result, hresult, ?_⟩
  apply h.told (j := (dispatch now intent c).journal)
  rw [Controller.perform, map_apply, hresult]
  rfl

/-- **Controllers that agree once they are laid down do the same**, and agree afterwards. -/
theorem Reached.dispatch_laid (hc : Reached past c) (hd : Reached past' d) (h : c.laid = d.laid) (now : Instant)
    (intent : Intent) :
    (dispatch now intent c).value = (dispatch now intent d).value ∧
      (dispatch now intent c).state.laid = (dispatch now intent d).state.laid ∧
      (dispatch now intent c).journal = (dispatch now intent d).journal := by
  have hbefore := unlaid_eq h
  obtain ⟨hvalue, hstate, hjournal⟩ := (oblivious_dispatch now intent).congr hbefore
  obtain ⟨result, hleft, hnext, htold⟩ := hc.dispatched now intent
  obtain ⟨result', hright, hnext', htold'⟩ := hd.dispatched now intent
  obtain rfl : result = result' := Option.some.inj (by rw [← hleft, hvalue, hright])
  have hentry : applied now (.dispatch intent) (.result result) c (dispatch now intent c).state =
      applied now (.dispatch intent) (.result result) d (dispatch now intent d).state := by
    unfold applied
    rw [phase_eq hbefore, phase_eq hstate, delay_eq hstate]
  rw [hentry] at htold
  exact ⟨hvalue, laid_eq hstate (htold.laid_eq htold' hnext.steady.1 hnext'.steady.1 (congrArg Controller.timer h) hstate),
    hjournal⟩

omit [Interpreter I] [Loader L I] [Presenter P] [SoundInterpreter I] in
theorem calm_of_quiet (hquiet : (c.timer.poll now).1 ≠ .ready) (hnamed : ¬ c.timer.Beyond now) : c.Calm now :=
  ⟨hquiet, mt Timer.poll_overflow_iff.1 hnamed⟩

/-- a controller that has no tick to give has none while it is asked intents one after the other; and unless one of them
sets its timer for a time beyond the clock it is calm all the while -/
theorem Reached.moments_calm {intents : List Intent} (h : Reached past c) (hquiet : (c.timer.poll now).1 ≠ .ready)
    (hnamed : ∀ d ∈ c.moments now intents, ¬ d.timer.Beyond now) : ∀ d ∈ c.moments now intents, d.Calm now := by
  have hcalm : c.Calm now := calm_of_quiet hquiet (hnamed c (mem_moments now intents c))
  induction intents generalizing past c with
  | nil =>
    intro d hd
    rwa [List.mem_singleton.1 hd]
  | cons intent rest ih =>
    obtain ⟨result, hresult, hnext, htold⟩ := h.dispatched now intent
    have hquiet' := htold.quiet hnext.steady.1 hquiet
    rw [moments_cons hresult] at hnamed ⊢
    intro d hd
    rcases List.mem_cons.1 hd with rfl | hlater
    · exact hcalm
    · have hnamed' := fun e he => hnamed e (List.mem_cons_of_mem c he)
      exact ih hnext hquiet' hnamed' (calm_of_quiet hquiet' (hnamed' _ (mem_moments now rest _))) d hlater

end Controller

namespace Session

open Controller (Reached)

variable {c : Controller I L P} {s s₀ b : Session I L P} {past : List Applied} {as : List Act} {es : List Command}

/-! ## Sessions that agree once they are laid down -/

def laid (s : Session I L P) : Session I L P := { s with controller := s.controller.laid }

/-- sessions of reached controllers that agree once they are laid down -/
structure Matched (s b : Session I L P) : Prop where
  laid : s.laid = b.laid
  left : ∃ past, Reached past s.controller
  right : ∃ past, Reached past b.controller

theorem Matched.split (h : Matched s b) :
    ∃ d, b = { s with controller := d } ∧ s.controller.laid = d.laid := by
  have hlaid := h.laid
  have hcontroller : s.controller.laid = b.controller.laid := congrArg controller hlaid
  refine ⟨b.controller, ?_, hcontroller⟩
  cases s
  cases b
  simp_all [Session.laid]

theorem Matched.status (h : Matched s b) : s.status = b.status := by
  obtain ⟨d, rfl, -⟩ := h.split
  rfl

variable [SoundInterpreter I]

/-- a command that both serve comes to the same -/
theorem Matched.serve (h : Matched s b) (now : Instant) (command : Command) :
    Matched (s.serve now command) (b.serve now command) := by
  obtain ⟨past, hleft⟩ := h.left
  obtain ⟨past', hright⟩ := h.right
  obtain ⟨d, rfl, hsame⟩ := h.split
  obtain ⟨result, hresult, hnext, -⟩ := hleft.dispatched now command.intent
  obtain ⟨result', hresult', hnext', -⟩ := hright.dispatched now command.intent
  obtain ⟨hvalue, hstate, hjournal⟩ := hleft.dispatch_laid hright hsame now command.intent
  obtain rfl : result = result' := Option.some.inj (by rw [← hresult, hvalue, hresult'])
  have hphase := Controller.phase_eq (Controller.unlaid_eq hstate)
  rw [serve_some hresult, serve_some (s := { s with controller := d }) hresult']
  refine ⟨?_, ⟨_, hnext⟩, ⟨_, hnext'⟩⟩
  dsimp only at hstate hjournal hphase
  simp only [Session.laid, hstate, hjournal, hphase]

theorem Matched.drain (h : Matched s b) (now : Instant) (commands : List Command) :
    Matched (s.drain now commands) (b.drain now commands) := by
  induction commands generalizing s b with
  | nil => exact h
  | cons command rest ih =>
    have hstatus := h.status
    by_cases hs : s.status = .alive
    · rw [drain_cons hs, drain_cons (hstatus ▸ hs)]
      exact ih (h.serve now command)
    · rw [drain_over hs, drain_over (hstatus ▸ hs)]
      exact h

/-- sessions that agree once they are laid down agree when one of them asks its timer for a tick in vain -/
theorem follows_matched (now : Instant) : Follows now (Matched (I := I) (L := L) (P := P)) where
  status h := h.status
  drain h commands := h.drain now commands
  calm h _ hcalm := hcalm.of_laid (congrArg controller h.laid)
  polled {s e} h _ hcalm := by
    obtain ⟨past, hleft⟩ := h.left
    refine ⟨?_, ⟨past, hleft.poll now⟩, h.right⟩
    rw [← h.laid]
    simp only [Session.laid, Controller.laid, Timer.laid_poll hcalm.1]

/-! ## A row of commands, one after the other -/

/-- `t` is what a session that was `s` comes to by serving, at `now`, what gives `answers`, leaves the controller `d` and
writes `j`; log records apart -/
structure Served (now : Instant) (s t : Session I L P) (answers : List (Nat × Except Error Unit)) (d : Controller I L P)
    (j : List (Entry I)) : Prop where
  status : t.status = .alive
  controller : t.controller = d
  replies : t.replies = s.replies ++ answers
  record : ∃ entries, t.record = s.record ++ entries.map (Timed.mk now) ∧ deeds entries = deeds j

omit [Interpreter I] [Loader L I] [Presenter P] [SoundInterpreter I] in
theorem dispatched_map (now : Instant) (commands : List Command) :
    dispatched (commands.map (Act.dispatch now)) = commands := by
  simp [dispatched, List.filterMap_map, Function.comp_def, Act.command?]

omit [Interpreter I] [Loader L I] [Presenter P] [SoundInterpreter I] in
theorem tickets_numbered (ticket : Nat) (requests : List Request) :
    (numbered ticket requests).map Command.ticket = List.range' ticket requests.length := by
  induction requests generalizing ticket with
  | nil => rfl
  | cons q rest ih => simp [numbered, ih, List.range'_succ]

/-- **Draining a row is dispatching it**, one command after the other. -/
theorem drain_replay (hs : s.status = .alive) (now : Instant) (commands : List Command) :
    (replay (commands.map (Act.dispatch now)) : Drive I L P _).Gives s.controller fun answers d j =>
      Served now s (s.drain now commands) answers d j := by
  induction commands generalizing s with
  | nil =>
    rw [List.map_nil, replay, gives_pure]
    exact ⟨hs, rfl, (List.append_nil _).symm, [], (List.append_nil _).symm, rfl⟩
  | cons command rest ih =>
    obtain ⟨result, hresult⟩ := Option.isSome_iff_exists.1
      ((Controller.oblivious_dispatch now command.intent).returns s.controller)
    have hserved := serve_some hresult
    have hrest := ih (serve_alive hs now command)
    rw [hserved] at hrest
    rw [List.map_cons, replay_cons, drain_cons hs, hserved]
    simp only [gives_bind, gives_map, Act.apply, gives_pure]
    refine ⟨result, hresult, hrest.imp ?_⟩
    intro answers d j hrow
    obtain ⟨entries, hrecord, hdeeds⟩ := hrow.record
    have hlog : deeds ((failures command.intent result).map (Entry.noted (I := I))) = [] := by cases result <;> rfl
    refine ⟨hrow.status, hrow.controller, ?_, (Controller.dispatch now command.intent s.controller).journal ++
      ((failures command.intent result).map .noted ++ entries), ?_, ?_⟩
    · rw [hrow.replies, List.append_assoc]
    · rw [hrecord]
      simp [remarks]
    · simp [hlog, hdeeds]

omit [SoundInterpreter I] in
/-- the size of the inbox does not matter to what is served -/
theorem drain_capacity (now : Instant) (commands : List Command) (room : Nat) (s : Session I L P) :
    ({ s with capacity := room } : Session I L P).drain now commands = { s.drain now commands with capacity := room } := by
  induction commands generalizing s with
  | nil => rfl
  | cons command rest ih =>
    by_cases hs : s.status = .alive
    case neg => rw [drain_over hs, drain_over (by exact hs)]
    rw [drain_cons hs, drain_cons (s := { s with capacity := room }) hs, ← ih]
    cases hvalue : (Controller.dispatch now command.intent s.controller).value with
    | none => rw [serve_none hvalue, serve_none (s := { s with capacity := room }) hvalue]
    | some result => rw [serve_some hvalue, serve_some (s := { s with capacity := room }) hvalue]

/-! ## Bursts -/

/-- requests sent all at once to a session whose inbox has room for `room` commands, and what the task makes of them -/
def burst (now : Instant) (room : Nat) (requests : List Request) (s : Session I L P) : Session I L P :=
  (({ s with capacity := room } : Session I L P).postAll requests).settle now

/-- **The size of the inbox does not show.** At an instant when no tick is due and nothing is on its way to the task, requests
that are sent all at once come to what their intents come to when they are dispatched one after the other, each exactly once
and with no tick in between, whatever the size of the inbox: unless one of them sets the timer for a time beyond the clock. -/
theorem burst_row (hc : Reached past c) (hnew : spawn? c = some s₀) (h : Runs s₀ as es s) (hs : s.status = .alive)
    (hgoing : s.cancelled = false) (hheld : s.abandoned = false) (hinbox : s.inbox = []) (hwaiting : s.waiting = [])
    (hquiet : (s.controller.timer.poll now).1 ≠ .ready) (requests : List Request)
    (hnamed : ∀ d ∈ s.controller.moments now (requests.map Request.intent), ¬ d.timer.Beyond now) :
    (replay ((numbered s.tickets requests).map (Act.dispatch now)) : Drive I L P _).Gives s.controller fun answers d j =>
      ∃ t, Served now s t answers d j ∧ answersTo t.replies s.tickets requests = requests.zip (answers.map Prod.snd) ∧
        ∀ room, 0 < room → (s.burst now room requests).laid = ({ t with capacity := room } : Session I L P).laid := by
  have hroot : s₀.controller = c := by rw [spawn?_eq hnew]
  obtain ⟨since, -, hreached⟩ := h.history (hroot ▸ hc)
  have hearlier := (h.ticketed (ticketed_spawn hnew)).replied_lt
  -- the row is served where the tickets have been given out
  let e : Session I L P := { s.emptied with tickets := s.tickets + requests.length }
  obtain ⟨answers, hanswers, hserved⟩ := drain_replay (s := e) hs now (numbered s.tickets requests)
  obtain ⟨answers', hanswers', htickets⟩ := replay_tickets ((numbered s.tickets requests).map (Act.dispatch now)) s.controller
  obtain rfl : answers = answers' := Option.some.inj (hanswers.symm.trans hanswers')
  rw [dispatched_map, tickets_numbered] at htickets
  refine ⟨answers, hanswers, e.drain now (numbered s.tickets requests), ⟨hserved.status, hserved.controller,
    hserved.replies, hserved.record⟩, ?_, fun room hroom => ?_⟩
  · rw [hserved.replies]
    exact answersTo_inOrder hearlier htickets
  · have hposted : ({ s with capacity := room } : Session I L P).postAll requests =
        { e with capacity := room, waiting := numbered s.tickets requests } := by
      rw [postAll_eq]
      simp [e, isAlive, emptied, hs, hwaiting, hinbox]
    have hcalm : AllCalm now (numbered s.tickets requests) s.controller := by
      intro d hd
      rw [map_numbered] at hd
      exact hreached.moments_calm hquiet hnamed d hd
    have hmatched : Matched (s.burst now room requests)
        (({ e with capacity := room } : Session I L P).drain now (numbered s.tickets requests)) := by
      unfold burst
      rw [hposted]
      exact (follows_matched now).rounds (s := { e with capacity := room, waiting := numbered s.tickets requests })
        ⟨rfl, ⟨_, hreached⟩, ⟨_, hreached⟩⟩ rfl hroom (fun _ => ⟨hgoing, hheld⟩) (fun hover => absurd hs hover) (fun _ => hcalm)
        (Nat.lt_succ_self _)
    rw [hmatched.laid, drain_capacity]

/-- a start and a stop, sent at once through an inbox with room for one command -/
theorem burst_row_narrow :
    let requests : List Request := [{ intent := .run }, { intent := .stop }]
    let row : List Act := [.dispatch 0 ⟨0, .run⟩, .dispatch 0 ⟨1, .stop⟩]
    ∃ s : Session Recital (List Recital) Unit,
      Reached [] (Controller.ofConfig { channelSize := 1 } [{}] () : Controller Recital (List Recital) Unit) ∧
        spawn? (Controller.ofConfig { channelSize := 1 } [{}] ()) = some s ∧ Runs s [] [] s ∧ s.status = .alive ∧
        s.cancelled = false ∧ s.abandoned = false ∧ s.inbox = [] ∧ s.waiting = [] ∧
        (s.controller.timer.poll 0).1 ≠ .ready ∧
        (∀ d ∈ s.controller.moments 0 (requests.map Request.intent), ¬ d.timer.Beyond 0) ∧
        ((replay row : Drive Recital (List Recital) Unit _).Gives s.controller fun answers d j =>
          ∃ t, Served 0 s t answers d j ∧ answersTo t.replies 0 requests = requests.zip (answers.map Prod.snd) ∧
            ∀ room, 0 < room → (s.burst 0 room requests).laid =
              ({ t with capacity := room } : Session Recital (List Recital) Unit).laid) := by
  intro requests row
  let s : Session Recital (List Recital) Unit :=
    { controller := Controller.ofConfig { channelSize := 1 } [{}] (), capacity := 1, watch := { phase := .idle } }
  have hs : spawn? (Controller.ofConfig { channelSize := 1 } [{}] ()) = some s := rfl
  have hquiet : (s.controller.timer.poll 0).1 ≠ .ready := by decide
  have hnamed : ∀ d ∈ s.controller.moments 0 (requests.map Request.intent), ¬ d.timer.Beyond 0 := by decide +kernel
  exact ⟨s, .new _ _ _, hs, .refl, rfl, rfl, rfl, rfl, rfl, hquiet, hnamed,
    burst_row (.new _ _ _) hs .refl rfl rfl rfl rfl rfl hquiet requests hnamed⟩

/-- **The size of the inbox shows where the timer is set for a time beyond the clock.** With room for one command the task
breaks down before the stop finds room; with room for two it serves both. -/
theorem burst_beyond_shows :
    let requests : List Request := [{ intent := .run }, { intent := .stop }]
    let s : Session Recital (List Recital) Unit :=
      { controller := Controller.ofConfig { stepDelay := .longest } [{}] (), capacity := 1, watch := { phase := .idle } }
    (answersTo (s.burst 0 1 requests).replies 0 requests).map Prod.snd = [.ok (), .error .sessionClosed] ∧
      (answersTo (s.burst 0 2 requests).replies 0 requests).map Prod.snd = [.ok (), .ok ()] := by
  decide +kernel

end Session

end StepControl

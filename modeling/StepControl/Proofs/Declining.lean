/-
Commands that come to nothing, served in passing.

A command is declined (`Controller.Declines`) where it has no place in the phase, asks for a delay of zero, or is a start
whose program does not parse. All that comes of it is a result and, for a start, one call of the loader, one check and one
announcement (`Controller.Declines.gives`). A session that serves such a command stays in step with another that never saw
it.

(1) Rows of commands.
- `Session.Paired.serve_declined`: one command that is declined leaves the sessions paired.
- `Session.Paired.drain`: sessions are paired after they drained, one a row of commands, the other the row without those
  that are declined.

(2) Lines that come in by rounds. What a session has in line is served as one row where it all finds room at once, and where
no tick is due at any moment while it is served (`AllCalm`).
- `Session.Follows.rounds`: then it comes to what a session that is related to it comes to by serving the line as one row.

(3) Two sessions of which one has commands in line that are declined, and the other has not (`Lined`), settle in step:
- `Session.Lined.settle_calm`: where no tick is due while the commands are served;
- `Session.Lined.settle_alone`: and then a session is in step with one that is left alone, where nothing else is in line;
- `Session.Lined.settle_room`: where all of them find room.

Premises: what the loader builds depends on the text alone. That no tick is due in between is asked of the controllers that
come up one after the other while the row is served (`Controller.moments`).
-/
import StepControl.Proofs.Cadence
import StepControl.Proofs.Refusals

namespace StepControl

open StepControl.Action

variable {I L P : Type} [Interpreter I] [Loader L I] [Presenter P] {build : String → I} {now : Instant}

theorem Operation.refusal?_of_futile {op : Operation} {p : Phase} {result : Except Error Unit}
    (h : op.futile? p = some result) : (Reply.result result).refusal? = none := by
  unfold Operation.futile? at h
  generalize op.plain = request at h
  cases request
  all_goals simp only [reduceCtorEq] at h
  all_goals
    split at h
    all_goals cases h
    all_goals rfl

namespace Controller

variable {c d : Controller I L P} {intent : Intent}

/-! ## Intents that come to nothing -/

/-- nothing comes of the intent: it has no place in the phase, or asks for a delay of zero, or it is a start and the program
does not parse -/
def Declines (c : Controller I L P) (intent : Intent) : Prop :=
  (intent.operation.futile? c.phase).isSome = true ∨
    intent.operation.isStart = true ∧ ∃ message, Interpreter.check c.built.machine = some (.rejected message)

instance (c : Controller I L P) : Decidable (∃ message, Interpreter.check c.built.machine = some (.rejected message)) :=
  match h : Interpreter.check c.built.machine with
  | some (.rejected message) => .isTrue ⟨message, rfl⟩
  | some .accepted => .isFalse fun ⟨_, hmessage⟩ => by cases hmessage
  | none => .isFalse fun ⟨_, hmessage⟩ => by cases hmessage

instance (c : Controller I L P) (intent : Intent) : Decidable (c.Declines intent) := inferInstanceAs (Decidable (_ ∨ _))

/-- the controller before each of the intents that it is asked one after the other, and after the last; up to the breakdown
if there is one -/
def moments (now : Instant) : List Intent → Controller I L P → List (Controller I L P)
  | [], c => [c]
  | intent :: rest, c =>
    c :: match (dispatch now intent c).value with
      | none => []
      | some _ => moments now rest (dispatch now intent c).state

theorem moments_cons {result : Except Error Unit} (h : (dispatch now intent c).value = some result) (rest : List Intent) :
    moments now (intent :: rest) c = c :: moments now rest (dispatch now intent c).state := by
  rw [moments, h]

theorem mem_moments (now : Instant) (intents : List Intent) (c : Controller I L P) : c ∈ moments now intents c := by
  cases intents with
  | nil => exact List.mem_singleton_self c
  | cons intent rest => exact List.mem_cons_self

/-- a start that is refused, dispatched -/
theorem dispatch_refused (hstart : intent.operation.isStart = true) {message : String}
    (hcheck : Interpreter.check c.built.machine = some (.rejected message)) (now : Instant) :
    (perform now (.dispatch intent) : Drive I L P Reply).Gives c fun reply d j =>
      reply = .result (.error (.badProgram message)) ∧ d = c.refused message ∧ deeds j = c.refusalDeeds message := by
  rw [gives_dispatch]
  cases intent with
  | run =>
    rw [Intent.operation, perform, gives_map, gives_run_rejected hcheck]
    exact ⟨rfl, rfl, rfl⟩
  | firstStep =>
    rw [Intent.operation, perform, gives_map, gives_firstStep_rejected hcheck]
    exact ⟨rfl, rfl, rfl⟩
  | _ => simp [Intent.operation, Operation.isStart] at hstart

/-- **A declined intent comes to nothing**, or to a start that is refused. -/
theorem Declines.gives (h : c.Declines intent) (now : Instant) :
    (dispatch now intent : Drive I L P (Except Error Unit)).Gives c fun result d j =>
      ((Reply.result result).refusal? = none ∧ d = c ∧ deeds j = []) ∨
        ∃ message, result = .error (.badProgram message) ∧ d = c.refused message ∧ deeds j = c.refusalDeeds message := by
  rcases h with hfutile | ⟨hstart, message, hcheck⟩
  · obtain ⟨answer, hanswer⟩ := Option.isSome_iff_exists.1 hfutile
    have hdispatch : (Operation.dispatch intent).futile? c.phase = some answer := by
      rwa [Operation.futile?_dispatch]
    have hgives : (perform now (.dispatch intent) : Drive I L P Reply).Gives c _ := futile_gives hdispatch
    rw [perform, gives_map] at hgives
    refine hgives.imp fun result d j hnothing => Or.inl ⟨?_, hnothing.2⟩
    obtain rfl : result = answer := hnothing.1
    exact Operation.refusal?_of_futile hanswer
  · have hgives := dispatch_refused hstart hcheck now
    rw [perform, gives_map] at hgives
    refine hgives.imp fun result d j hrefused => Or.inr ⟨message, ?_, hrefused.2⟩
    exact Reply.result.inj hrefused.1

end Controller

namespace InStep

variable {c d : Controller I L P}

omit [Interpreter I] [Presenter P] in
theorem calm [Interpreter I] (h : InStep build c d) (hcalm : c.Calm now) : d.Calm now := by
  rwa [Controller.Calm, (Timer.poll_eq h.timer now).1] at hcalm

/-- the controller that a declined intent leaves -/
theorem declined (h : InStep build c d) {intent : Intent} (hdecline : c.Declines intent) (now : Instant) :
    ∃ result, (Controller.dispatch now intent c).value = some result ∧
      InStep build (Controller.dispatch now intent c).state d := by
  obtain ⟨result, hvalue, ⟨-, hstate, -⟩ | ⟨message, -, hstate, -⟩⟩ := hdecline.gives now
  · exact ⟨result, hvalue, by rwa [hstate]⟩
  · refine ⟨result, hvalue, ?_⟩
    rw [hstate]
    exact { h with loader := ⟨h.loader.1.rest c.program, h.loader.2⟩, loads := trivial }

end InStep

omit [Interpreter I] in
theorem filterMap_unnumbered_deeds (j : List (Entry I)) :
    (deeds j).filterMap Entry.unnumbered = j.filterMap Entry.unnumbered := by
  rw [deeds, List.filterMap_filter]
  refine List.filterMap_congr fun e _ => ?_
  cases e <;> rfl

namespace Session

variable {s t b d : Session I L P} {r : Nat → Option Nat} {command : Command} {commands : List Command}

/-! ## Commands that come to nothing -/

/-- **A declined command leaves a session in step** with one that never saw it. -/
theorem Paired.serve_declined (h : Paired build r s b) (hs : s.status = .alive) (hticket : r command.ticket = none)
    (hdecline : s.controller.Declines command.intent) (now : Instant) :
    (s.serve now command).status = .alive ∧ Paired build r (s.serve now command) b := by
  obtain ⟨result, hvalue, hpost⟩ := hdecline.gives now
  rw [serve_some hvalue]
  have hphase : (Controller.dispatch now command.intent s.controller).state.phase = s.watch.phase := by
    rw [h.published hs]
    rcases hpost with ⟨-, hstate, -⟩ | ⟨message, -, hstate, -⟩ <;> rw [hstate]
    rfl
  obtain ⟨-, -, hjoins⟩ := (h.inStep hs).declined hdecline now
  refine ⟨hs, ?_⟩
  exact
    { h with
      controller := fun _ => hjoins
      replies := by simp [translated, ← h.replies, hticket]
      watch := by rw [hphase, Watch.publish, if_pos rfl, h.watch]
      published := fun _ => Watch.publish_phase _ _
      record := by
        simp only [trace_append, trace_remarks, List.append_nil, refusals_append, trace_timed]
        rw [← filterMap_unnumbered_deeds]
        rcases hpost with ⟨hmessage, -, hdeeds⟩ | ⟨message, rfl, -, hdeeds⟩
        · have hnone : refusals r [(command.ticket, result)] = [] := by simp [refusals, hticket, hmessage]
          rw [hdeeds, hnone]
          simpa using h.record
        · have hone : refusals r [(command.ticket, .error (.badProgram message))] = [message] := by
            simp [refusals, hticket, Reply.refusal?, Reply.toResult]
          have hshown : ((s.controller.refusalDeeds message).filterMap Entry.unnumbered).map (Timed.mk now) =
              refusedStart now s.controller.program s.controller.built.machine message := rfl
          rw [hdeeds, hone, hshown]
          simpa using h.record.append (.refused now _ _ message .nil) }

/-! ## Draining -/

/-- the commands as the other session has them, without those that it never saw -/
def counterparts (r : Nat → Option Nat) (commands : List Command) : List Command :=
  commands.filterMap fun command => (r command.ticket).map fun ticket => ⟨ticket, command.intent⟩

/-- the commands that the other session never saw are declined, where all are served one after the other -/
def Declined (now : Instant) (r : Nat → Option Nat) (commands : List Command) (c : Controller I L P) : Prop :=
  ∀ p ∈ (c.moments now (commands.map Command.intent)).zip commands, r p.2.ticket = none → p.1.Declines p.2.intent

/-- no tick is due at any moment while the commands are served one after the other -/
def AllCalm (now : Instant) (commands : List Command) (c : Controller I L P) : Prop :=
  ∀ d ∈ c.moments now (commands.map Command.intent), d.Calm now

theorem Declined.head {rest : List Command} {c : Controller I L P} (h : Declined now r (command :: rest) c)
    (hticket : r command.ticket = none) : c.Declines command.intent := by
  refine h (c, command) ?_ hticket
  rw [List.map_cons, Controller.moments, List.zip_cons_cons]
  exact List.mem_cons_self

theorem Declined.tail {rest : List Command} {c : Controller I L P} {result : Except Error Unit}
    (h : Declined now r (command :: rest) c) (hvalue : (Controller.dispatch now command.intent c).value = some result) :
    Declined now r rest (Controller.dispatch now command.intent c).state := by
  intro p hp
  refine h p ?_
  rw [List.map_cons, Controller.moments_cons hvalue, List.zip_cons_cons]
  exact List.mem_cons_of_mem _ hp

theorem AllCalm.head {c : Controller I L P} (h : AllCalm now commands c) : c.Calm now := h c (Controller.mem_moments ..)

theorem AllCalm.tail {rest : List Command} {c : Controller I L P} {result : Except Error Unit}
    (h : AllCalm now (command :: rest) c) (hvalue : (Controller.dispatch now command.intent c).value = some result) :
    AllCalm now rest (Controller.dispatch now command.intent c).state := by
  intro d hd
  refine h d ?_
  rw [List.map_cons, Controller.moments_cons hvalue]
  exact List.mem_cons_of_mem _ hd

/-- **Sessions that drain stay in step**, where one drains a row of commands and the other the row without those that are
declined. -/
theorem Paired.drain (h : Paired build r s b) (hdeclined : Declined now r commands s.controller) :
    Paired build r (s.drain now commands) (b.drain now (counterparts r commands)) := by
  induction commands generalizing s b with
  | nil => exact h
  | cons command rest ih =>
    by_cases hs : s.status = .alive
    case neg =>
      rw [drain_over hs, drain_over (h.status ▸ hs)]
      exact h
    rw [drain_cons hs]
    obtain ⟨hcontroller, hserved⟩ := serve_cases now command s
    cases hticket : r command.ticket with
    | none =>
      have hskip : counterparts r (command :: rest) = counterparts r rest := by simp [counterparts, hticket]
      obtain ⟨halive, hnext⟩ := h.serve_declined hs hticket (hdeclined.head hticket) now
      rcases hserved with ⟨-, hcrashed⟩ | ⟨result, hvalue, -⟩
      · rw [halive] at hcrashed
        cases hcrashed
      · rw [hskip]
        exact ih hnext (hcontroller ▸ hdeclined.tail hvalue)
    | some ticket =>
      have hkeep : counterparts r (command :: rest) = ⟨ticket, command.intent⟩ :: counterparts r rest := by
        simp [counterparts, hticket]
      rw [hkeep, drain_cons (h.status ▸ hs)]
      have hsame : Command.Same r command ⟨ticket, command.intent⟩ := ⟨hticket, rfl⟩
      have hnext := h.serve hs hsame now
      rcases hserved with ⟨-, hcrashed⟩ | ⟨result, hvalue, -⟩
      · have hover : (s.serve now command).status ≠ .alive := by simp [hcrashed]
        rw [drain_over hover, drain_over (hnext.status ▸ hover)]
        exact hnext
      · exact ih hnext (hcontroller ▸ hdeclined.tail hvalue)

/-- where no tick is due at any moment while commands are served, none is due without those that are declined -/
theorem AllCalm.counterparts {c d : Controller I L P} (hcalm : AllCalm now commands c) (hin : InStep build c d)
    (hdeclined : Declined now r commands c) : AllCalm now (counterparts r commands) d := by
  induction commands generalizing c d with
  | nil =>
    intro e he
    obtain rfl : e = d := List.mem_singleton.1 he
    exact hin.calm hcalm.head
  | cons command rest ih =>
    cases hticket : r command.ticket with
    | none =>
      have hskip : Session.counterparts r (command :: rest) = Session.counterparts r rest := by
        simp [Session.counterparts, hticket]
      obtain ⟨result, hvalue, hnext⟩ := hin.declined (hdeclined.head hticket) now
      rw [hskip]
      exact ih (hcalm.tail hvalue) hnext (hdeclined.tail hvalue)
    | some ticket =>
      have hkeep : Session.counterparts r (command :: rest) = ⟨ticket, command.intent⟩ :: Session.counterparts r rest := by
        simp [Session.counterparts, hticket]
      rw [hkeep]
      intro e he
      rw [List.map_cons, Controller.moments] at he
      rcases List.mem_cons.1 he with rfl | hrest
      · exact hin.calm hcalm.head
      · rcases (hin.dispatch now command.intent).2 with ⟨-, hnone⟩ | ⟨result, hvalue, hvalue', hnext⟩
        · simp [hnone] at hrest
        · simp only [hvalue'] at hrest
          exact ih (hcalm.tail hvalue) hnext (hdeclined.tail hvalue) e hrest

/-- calm goes on where a part of the commands is served -/
theorem AllCalm.drain {more : List Command} (hcalm : AllCalm now (commands ++ more) s.controller)
    (hs : (s.drain now commands).status = .alive) : AllCalm now more (s.drain now commands).controller := by
  induction commands generalizing s with
  | nil => exact hcalm
  | cons command rest ih =>
    by_cases halive : s.status = .alive
    case neg =>
      rw [drain_over halive] at hs
      exact absurd hs halive
    rw [drain_cons halive] at hs ⊢
    obtain ⟨hcontroller, ⟨-, hcrashed⟩ | ⟨result, hvalue, -⟩⟩ := serve_cases now command s
    · rw [drain_over (by simp [hcrashed]), hcrashed] at hs
      cases hs
    · rw [List.cons_append] at hcalm
      exact ih (hcontroller ▸ hcalm.tail hvalue) hs

/-! ## Rounds in which no tick is due -/

omit [Interpreter I] [Loader L I] [Presenter P] in
theorem counterparts_some (commands : List Command) : counterparts some commands = commands := List.filterMap_some

/-- sessions that are related stay so when both drain the same commands, and when the first asks its timer for a tick in
vain -/
structure Follows (now : Instant) (R : Session I L P → Session I L P → Prop) : Prop where
  status : ∀ {s e}, R s e → s.status = e.status
  drain : ∀ {s e}, R s e → ∀ commands, R (s.drain now commands) (e.drain now commands)
  calm : ∀ {s e}, R s e → s.status = .alive → e.controller.Calm now → s.controller.Calm now
  polled : ∀ {s e}, R s e → s.status = .alive → s.controller.Calm now →
    R { s with controller := { s.controller with timer := (s.controller.timer.poll now).2 } } e

/-- **Where no tick is due the rounds do not matter**: a session comes to what one that is related to it comes to by serving
the line as one row. -/
theorem Follows.rounds {R : Session I L P → Session I L P → Prop} (hR : Follows now R) {e : Session I L P}
    (h : R s.emptied e) (hi : s.inbox = []) (hroom : 0 < s.capacity)
    (hgoing : s.status = .alive → s.cancelled = false ∧ s.abandoned = false) (hgone : s.status ≠ .alive → s.waiting = [])
    (hcalm : s.status = .alive → AllCalm now s.waiting e.controller) {fuel : Nat} (hfuel : s.waiting.length < fuel) :
    R (s.rounds now fuel) (e.drain now s.waiting) := by
  induction fuel generalizing s e with
  | zero => exact absurd hfuel (Nat.not_lt_zero _)
  | succ fuel ih =>
    by_cases hs : s.status = .alive
    case neg =>
      have hw := hgone hs
      have he : e.status ≠ .alive := hR.status h ▸ hs
      rw [rounds_over hs hi hw, drain_over he]
      rwa [emptied_eq hi hw] at h
    obtain ⟨hc, ha⟩ := hgoing hs
    have hcalm := hcalm hs
    have hfill : s.fillInbox = { s with inbox := s.waiting.take s.capacity, waiting := s.waiting.drop s.capacity } := by
      simp [Session.fillInbox, hi]
    have hrow : s.waiting.take s.capacity ++ s.waiting.drop s.capacity = s.waiting := List.take_append_drop ..
    have hlater : s.waiting.drop s.capacity ≠ [] → (s.waiting.drop s.capacity).length < fuel := by
      intro hsome
      have := List.length_pos_of_ne_nil hsome
      rw [List.length_drop] at this ⊢
      omega
    generalize s.waiting.take s.capacity = front at hfill hrow
    generalize s.waiting.drop s.capacity = rest at hfill hrow hlater
    -- one round: what found room is drained
    have hwork : s.fillInbox.work now =
        ({ s with inbox := [], waiting := rest }.drain now front).turns now (s.controller.timer.backlog now + 1) := by
      rw [hfill]
      exact work_drain (s := { s with inbox := front, waiting := rest }) hs hc now
    have hqueued : ({ s with inbox := [], waiting := rest } : Session I L P).drain now front = _ :=
      drain_queued (s := s.emptied) hs now front [] rest
    have hdrained := hR.drain h front
    obtain ⟨hcancelled, habandoned, hcapacity⟩ := drain_flags now front s.emptied
    have hemptied := drain_emptied now front s
    rw [← hrow] at hcalm ⊢
    rw [drain_append, Session.rounds, hwork, hqueued]
    generalize s.emptied.drain now front = d at hdrained hcancelled habandoned hcapacity hemptied ⊢
    by_cases hd : d.status = .alive
    · -- no tick is due then, so the next round begins with the controller that this one left
      have he : (e.drain now front).status = .alive := hR.status hdrained ▸ hd
      have hrest := hcalm.drain he
      have hcalm' := hR.calm hdrained hd hrest.head
      have hparked := turn_calm (s := { d with inbox := [], waiting := rest }) hd (hcancelled.trans hc) rfl
        (habandoned.trans ha) hcalm'
      rw [if_pos hd, Session.turns, hparked]
      dsimp only
      have hnext : R ({ d with inbox := [], waiting := rest, controller :=
          { d.controller with timer := (d.controller.timer.poll now).2 } } : Session I L P).emptied (e.drain now front) := by
        have hpolled := hR.polled hdrained hd hcalm'
        rwa [← hemptied] at hpolled
      split
      case isTrue hnone =>
        obtain rfl : rest = [] := hnone
        exact hnext
      case isFalse hsome =>
        exact ih hnext rfl (hcapacity ▸ hroom) (fun _ => ⟨hcancelled.trans hc, habandoned.trans ha⟩)
          (fun hover => absurd hd hover) (fun _ => hrest) (hlater hsome)
    · have hover : (e.drain now front).status ≠ .alive := hR.status hdrained ▸ hd
      rw [if_neg hd, hemptied, turns_over hd, drain_over hover]
      rw [if_pos (by rw [← hemptied]; rfl)]
      exact hdrained

/-- sessions in step that drain the same row -/
theorem follows_paired (build : String → I) (now : Instant) : Follows now (Paired (L := L) (P := P) build some) where
  status h := h.status
  drain {s e} h commands := by
    have hdeclined : Declined now some commands s.controller := fun _ _ hnone => by cases hnone
    have hdrained := h.drain hdeclined
    rwa [counterparts_some] at hdrained
  calm h hs hcalm := (h.inStep hs).symm.calm hcalm
  polled h hs hcalm := { h with controller := fun _ => (h.inStep hs).asked hcalm.1 }

/-! ## Sessions with commands in line -/

/-- two sessions in step but for what is in line, which the second has without commands that are declined -/
structure Lined (build : String → I) (r : Nat → Option Nat) (now : Instant) (s b : Session I L P) : Prop where
  paired : Paired build r s.emptied b.emptied
  inbox : s.inbox = [] ∧ b.inbox = []
  line : b.waiting = counterparts r s.waiting
  going : s.status = .alive → s.cancelled = false ∧ s.abandoned = false
  gone : s.status ≠ .alive → s.waiting = []
  declined : Declined now r s.waiting s.controller

theorem Lined.right (h : Lined build r now s b) :
    (b.status = .alive → b.cancelled = false ∧ b.abandoned = false) ∧ (b.status ≠ .alive → b.waiting = []) := by
  have hstatus : s.status = b.status := h.paired.status
  have hcancelled : s.cancelled = b.cancelled := h.paired.cancelled
  have habandoned : s.abandoned = b.abandoned := h.paired.abandoned
  rw [← hstatus, ← hcancelled, ← habandoned]
  refine ⟨h.going, fun hs => ?_⟩
  rw [h.line, h.gone hs]
  rfl

/-- a session settles to what draining the line comes to, where no tick is due meanwhile -/
theorem Lined.settle_left (h : Lined build r now s b) (hcalm : s.status = .alive → AllCalm now s.waiting s.controller) :
    Paired build r (s.settle now) (b.emptied.drain now b.waiting) := by
  have hrounds : Paired build some (s.settle now) (s.emptied.drain now s.waiting) :=
    (follows_paired build now).rounds h.paired.left h.inbox.1 h.paired.room h.going h.gone hcalm (Nat.lt_succ_self _)
  rw [h.line]
  exact hrounds.trans (h.paired.drain h.declined)

/-- **Sessions settle in step where no tick is due** while the commands are served. -/
theorem Lined.settle_calm (h : Lined build r now s b) (hcalm : s.status = .alive → AllCalm now s.waiting s.controller) :
    Paired build r (s.settle now) (b.settle now) := by
  obtain ⟨hgoing, hgone⟩ := h.right
  have hcalm' : b.status = .alive → AllCalm now b.waiting b.controller := by
    intro hb
    have hs : s.status = .alive := h.paired.status.trans hb
    rw [h.line]
    exact (hcalm hs).counterparts (h.paired.inStep hs) h.declined
  exact (h.settle_left hcalm).through
    ((follows_paired build now).rounds h.paired.right h.inbox.2 h.paired.right.room hgoing hgone hcalm' (Nat.lt_succ_self _))

/-- **Commands that come to nothing are served in passing**: where no tick is due, the session settles in step with one that
is left alone. -/
theorem Lined.settle_alone (h : Lined build r now s b) (hcalm : s.status = .alive → AllCalm now s.waiting s.controller)
    (hnone : b.waiting = []) : Paired build r (s.settle now) b := by
  have hsettled := h.settle_left hcalm
  rwa [hnone, drain, emptied_eq h.inbox.2 hnone] at hsettled

/-- **Sessions settle in step where all commands find room.** -/
theorem Lined.settle_room (h : Lined build r now s b) (hroom : s.waiting.length ≤ s.capacity) :
    Paired build r (s.settle now) (b.settle now) := by
  obtain ⟨hgoing, hgone⟩ := h.right
  have hstatus : s.status = b.status := h.paired.status
  have hcapacity : s.capacity = b.capacity := h.paired.capacity
  by_cases hs : s.status = .alive
  case neg =>
    have hb : b.status ≠ .alive := hstatus ▸ hs
    rw [settle, settle, rounds_over hs h.inbox.1 (h.gone hs), rounds_over hb h.inbox.2 (hgone hb)]
    have hpaired := h.paired
    rwa [emptied_eq h.inbox.1 (h.gone hs), emptied_eq h.inbox.2 (hgone hb)] at hpaired
  have hb : b.status = .alive := hstatus ▸ hs
  have hroom' : b.waiting.length ≤ b.capacity := by
    rw [h.line, ← hcapacity]
    exact Nat.le_trans (List.length_filterMap_le _ _) hroom
  have hbacklog : s.controller.timer.backlog now = b.controller.timer.backlog now :=
    Timer.backlog_eq (h.paired.inStep hs).timer now
  rw [Session.settle_room hs (h.going hs).1 h.inbox.1 hroom, Session.settle_room hb (hgoing hb).1 h.inbox.2 hroom',
    hbacklog, h.line]
  exact (h.paired.drain h.declined).turns now _

end Session

end StepControl

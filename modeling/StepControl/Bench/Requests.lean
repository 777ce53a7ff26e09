/-
How a bench carries out requests.

Nothing runs in a session unless a request lets it: sending intents, letting time pass, settling, waiting, spawning and
letting go. A request that cannot be read, or that has an answer already, lets nothing run. To let go of a session where
there is none is no mistake; any other request that only a session meets is refused without one.
-/
import StepControl.Bench.Basic

namespace StepControl.Bench

/-- a bench with a new controller -/
def ofController (config : Config) (scripts : List Script) (sink : Sink) : Bench where
  hand := .controller (Controller.ofConfig config ⟨scripts⟩ sink)

/-- the intent that asks a session for an operation; a tick cannot be asked for -/
def intentOf? : Operation → Option Intent
  | .load text => some (.load text)
  | .setOptimize on => some (.setOptimize on)
  | .run => some .run
  | .firstStep => some .firstStep
  | .step => some .step
  | .pause => some .pause
  | .resume => some .resume
  | .stop => some .stop
  | .supplyInput text => some (.supplyInput text)
  | .setDelay millis => some (.setDelay millis)
  | .tick => none
  | .dispatch intent => some intent

/-! ## What is in hand -/

/-- write down what happened at the present time -/
def write (entries : List (Entry Player)) (b : Bench) : Bench :=
  { b with journal := b.journal ++ entries.map (Timed.mk b.clock) }

/-- fetch the mail and hold the controller -/
def hold (c : Driven) (b : Bench) : Bench :=
  let drained := c.presenter.drain
  { b with hand := .controller { c with presenter := drained.2 }, mail := b.mail ++ drained.1 }

/-- fetch mail and record of a session and hold it -/
def keep (s : Spawned) (b : Bench) : Bench :=
  let drained := s.controller.presenter.drain
  { b with
    hand := .session { s with controller := { s.controller with presenter := drained.2 }, record := [] }
    journal := b.journal ++ s.record
    mail := b.mail ++ drained.1 }

/-- nothing is in hand any more -/
def release (b : Bench) : Bench := { b with hand := .nothing }

/-- a session is over; its last phase stays for those who subscribed -/
def retire (s : Spawned) (b : Bench) : Bench := { b with past := b.past ++ [s.watch] }

/-! ## Requests -/

/-- carry out an operation of the controller -/
def operate (operation : Operation) (c : Driven) (b : Bench) : Answer × Bench :=
  let turn := c.perform b.clock operation
  let b := (b.write turn.journal).hold turn.state
  match turn.value with
  | some reply => (.reply reply, b)
  | none => (.reply (.result (.error .sessionLost)), b.release)

/-- send intents to the session all at once and let the task run until all are answered -/
def send (intents : List Intent) (s : Spawned) (b : Bench) : List (Except Error Unit) × Bench :=
  if intents = [] then ([], b)
  else
    let posted := intents.foldl (fun s intent => (s.post intent).2) s
    let ran := posted.settle b.clock
    let replies := (List.range intents.length).map fun k =>
      (ran.reply? (s.tickets + k)).getD (.error .sessionClosed)
    (replies, b.keep ran)

/-- send one intent to the session -/
def sendOne (intent : Intent) (s : Spawned) (b : Bench) : Answer × Bench :=
  let sent := b.send [intent] s
  (.reply (.result (sent.1.headD (.error .sessionClosed))), sent.2)

/-- announce to a presenter -/
def announceAll (notices : List Notice) (sink : Sink) (b : Bench) : Sink × Bench :=
  (notices.foldl Presenter.accept sink, b.write (notices.map .shown))

/-- let time pass -/
def sleep (length : Nat) (b : Bench) : Bench :=
  let limit := b.clock + length * nanosPerMilli
  match b.hand with
  | .session s => { b.keep (s.sleep b.clock limit) with clock := limit }
  | _ => { b with clock := limit }

/-- let the task run at the present time -/
def settle (b : Bench) : Bench :=
  match b.hand with
  | .session s => b.keep (s.settle b.clock)
  | _ => b

/-- what a subscription shows, and the version looked at -/
def look? (subscription : Subscription) (b : Bench) : Option (Look × Nat) :=
  match b.past[subscription.session]?, b.hand with
  | some watch, _ => some (⟨none, watch.phase⟩, watch.version)
  | none, .session s => some (⟨s.changed? subscription.seen, s.watch.phase⟩, s.watch.version)
  | none, _ => none

/-- requests that a session alone can meet -/
def sessionRequest (request : Request) (s : Spawned) (b : Bench) : Answer × Bench :=
  match request with
  | .shutdown =>
    let ended := s.shutdown b.clock
    let b := (b.keep ended.2).retire ended.2
    match ended.1 with
    | .ok c => (.nothing, { b with hand := .controller { c with presenter := c.presenter.drain.2 } })
    | .error e => (.reply (.result (.error e)), b.release)
  | .drop =>
    let ended := s.abandon b.clock
    (.nothing, ((b.keep ended).retire ended).release)
  | .burst none | .waitFor none _ => (.unreadable, b)
  | .burst (some intents) =>
    let sent := b.send intents s
    (.replies sent.1, sent.2)
  | .waitFor (some target) length =>
    let waited := s.waitFor target b.clock (b.clock + length * nanosPerMilli)
    (.waited waited.1, { b.keep waited.2.2 with clock := waited.2.1 })
  | .subscribe =>
    (.index b.subscriptions.length,
      { b with subscriptions := b.subscriptions ++ [⟨b.past.length, s.seen⟩] })
  | _ => (.refused .noSuchOperation, b)

/-- requests that a controller in hand can meet -/
def controllerRequest (request : Request) (c : Driven) (b : Bench) : Answer × Bench :=
  match request with
  | .operate operation => b.operate operation c
  | .dispatch (some intent) => b.operate (.dispatch intent) c
  | .dispatch none => (.unreadable, b)
  | .config => (.config c.config, b)
  | .present notice =>
    let told := b.announceAll notice.toList c.presenter
    (.nothing, told.2.hold { c with presenter := told.1 })
  | .intoPresenter notices =>
    let told := b.announceAll notices c.presenter
    (.nothing, (told.2.hold { c with presenter := told.1 }).release)
  | .spawn =>
    match Session.spawn? c with
    | some s => (.nothing, b.keep (s.settle b.clock))
    | none => (.refused .noSuchOperation, b)
  | _ => (.refused .noSuchOperation, b)

/-- carry out a request -/
def answer (request : Request) (b : Bench) : Answer × Bench :=
  match request with
  | .sleep length => (.nothing, b.sleep length)
  | .jump length => (.nothing, { b with clock := b.clock + length * nanosPerMilli }.settle)
  | .settle => (.nothing, b.settle)
  | .poll index =>
    match b.subscriptions[index]? with
    | none => (.refused .noSubscription, b)
    | some subscription =>
      match b.look? subscription with
      | none => (.refused .noSubscription, b)
      | some (look, version) =>
        (.look look,
          { b with subscriptions := b.subscriptions.set index { subscription with seen := version } })
  | .shutdown =>
    match b.hand with
    | .session s => b.sessionRequest request s
    | _ => (.refused .noSession, b)
  | .drop =>
    match b.hand with
    | .session s => b.sessionRequest request s
    | _ => (.nothing, b)
  | .burst _ | .waitFor .. | .subscribe =>
    match b.hand with
    | .session s => b.sessionRequest request s
    | .controller _ => (.refused .noSuchOperation, b)
    | .nothing => (.refused .noController, b)
  | .spawn | .config | .present _ | .intoPresenter _ | .unknown =>
    match b.hand with
    | .controller c => b.controllerRequest request c
    | .session _ => (.refused (if request matches .spawn then .noController else .noSuchOperation), b)
    | .nothing => (.refused .noController, b)
  | .operate operation =>
    match b.hand with
    | .controller c => b.controllerRequest request c
    | .session s =>
      match intentOf? operation with
      | none => (.refused .noSuchOperation, b)
      | some intent => b.sendOne intent s
    | .nothing => (.refused .noController, b)
  | .dispatch intent =>
    match b.hand with
    | .controller c => b.controllerRequest request c
    | .session s =>
      match intent with
      | none => (.unreadable, b)
      | some intent => b.sendOne intent s
    | .nothing => (.refused .noController, b)

/-- carry out a request; journal and mail are what it brought -/
def request (request : Request) (b : Bench) : Answer × Bench :=
  { b with journal := [], mail := [] }.answer request

/-- carry out requests one after the other; each answer comes with the bench as it was then -/
def requests (b : Bench) : List Request → List (Answer × Bench)
  | [] => []
  | r :: rest =>
    let one := b.request r
    one :: one.2.requests rest

end StepControl.Bench

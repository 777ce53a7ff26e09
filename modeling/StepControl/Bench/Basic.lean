/-
A bench for a controller of scripted interpreters: one client with a clock of its own.

The client has at most one thing in hand: the controller itself, or the session that it handed the controller to. It asks
for one thing at a time; what happened meanwhile is in the journal, with the times.
-/
import StepControl.Script
import StepControl.Session.Clock

namespace StepControl

/-- where the notices of a controller on the bench go -/
inductive Sink where
  /-- nowhere: the bench reads them in the journal -/
  | journal
  | channel (channel : Channel)
  | nobody
  deriving DecidableEq, Repr

namespace Sink

instance : Presenter Sink where
  accept
    | .channel c, notice => .channel (c.send notice.event)
    | sink, _ => sink

/-- fetch what has arrived in the channel, and read it as the notices that were sent -/
def drain : Sink → List Notice × Sink
  | .channel c => (c.drain.1.map PresenterEvent.notice, .channel c.drain.2)
  | sink => ([], sink)

end Sink

namespace Bench

/-- a controller on the bench -/
abbrev Driven : Type := Controller Player Repertoire Sink

/-- a session on the bench -/
abbrev Spawned : Type := Session Player Repertoire Sink

/-- what the client has in hand -/
inductive Hand where
  | controller (controller : Driven)
  | session (session : Spawned)
  | nothing

/-- a reader of the phases that one of the sessions publishes -/
structure Subscription where
  /-- the session, by the number of sessions let go of before it was spawned -/
  session : Nat
  /-- the version looked at last -/
  seen : Nat
  deriving DecidableEq, Repr

/-- what the client can ask for; a missing intent, phase or notice is one that could not be read -/
inductive Request where
  | operate (operation : Operation)
  | dispatch (intent : Option Intent)
  | config
  | present (notice : Option Notice)
  /-- take the presenter out of the controller and announce to it -/
  | intoPresenter (notices : List Notice)
  | spawn
  | shutdown
  | drop
  /-- let time pass, running all that is due before its end -/
  | sleep (length : Nat)
  /-- let time pass at once -/
  | jump (length : Nat)
  | settle
  /-- send intents all at once -/
  | burst (intents : Option (List Intent))
  | waitFor (target : Option Phase) (length : Nat)
  | subscribe
  | poll (subscription : Nat)
  | unknown

/-- why a request makes no sense -/
inductive Refusal where
  | noController
  | noSession
  | noSubscription
  | noSuchOperation
  deriving DecidableEq, Repr

/-- what a subscription shows; `changed` is missing when the session is over -/
structure Look where
  changed : Option Bool
  phase : Phase
  deriving DecidableEq, Repr

/-- what the client gets -/
inductive Answer where
  | nothing
  | reply (reply : Reply)
  | replies (replies : List (Except Error Unit))
  | config (config : Config)
  | waited (how : Session.Waited)
  | index (n : Nat)
  | look (look : Look)
  | unreadable
  | refused (why : Refusal)

end Bench

/-- a bench -/
structure Bench where
  clock : Instant := 0
  hand : Bench.Hand
  /-- the last phases of the sessions let go of, oldest first -/
  past : List Watch := []
  subscriptions : List Bench.Subscription := []
  /-- what happened since the last request, oldest first -/
  journal : List (Timed (Entry Player)) := []
  /-- what the channel received since the last request -/
  mail : List Notice := []

end StepControl

import Rendezvous.Server.Error
import Rendezvous.Server.Handling

/-! # Running the server

The server takes events from its transport in batches.  It handles each event to
the end, sending all that the event causes, before the next.  A packet that the
transport does not take is given up.  The server stops when a batch is announced
with a count of zero (the transport has stopped, and the events of that batch
are not handled) or when it is asked to; either way it shuts the transport down
once.

One list of events and one outbox serve the whole run (`Loop`): the transport
adds to the events, handling adds to the outbox, and both are emptied as they
are used up.

`Script` fixes what a transport does, and `serve` records in a `Report` every
call that the server makes of it.
-/

namespace Rendezvous

/-- What one poll of the transport yields. -/
structure Batch where
  events : List Event
  /-- How many events the transport says it has added.  Zero says that it has stopped. -/
  count : Nat
  deriving DecidableEq, Repr

/-- What ends a run once the batches are used up. -/
inductive Ending where
  | stopped
  /-- The transport has nothing more to report, and the server is asked to stop. -/
  | asked
  deriving DecidableEq, Repr

/-- All that a transport does during a run. -/
structure Script where
  batches : List Batch
  ending : Ending := .stopped
  /-- Whether the transport refuses the send with this number, counted from zero. -/
  refuses : Nat → Delivery → Option TransportError := fun _ _ => none
  shutdownError : Option TransportError := none

inductive Call where
  | poll
  /-- A packet is handed over, and what comes of it. -/
  | send (delivery : Delivery) (refused : Option TransportError)
  | shutdown
  deriving DecidableEq, Repr

structure Report where
  calls : List Call
  lobby : Lobby
  cause : Ending
  result : Except ServerError Unit

/-- What the server holds between the calls of its transport. -/
structure Loop where
  lobby : Lobby
  /-- Events that the transport has added and that wait to be handled. -/
  events : List Event := []
  outbox : Outbox := {}
  sent : Nat := 0

namespace Script

/-- Hands deliveries to the transport one by one; `sent` were handed over before. -/
def handOver (script : Script) : Nat → List Delivery → List Call
  | _, [] => []
  | sent, delivery :: deliveries =>
    .send delivery (script.refuses sent delivery) :: script.handOver (sent + 1) deliveries

def flush (script : Script) (loop : Loop) : List Call × Loop :=
  let (deliveries, outbox) := loop.outbox.drain
  (script.handOver loop.sent deliveries,
    { loop with outbox, sent := loop.sent + deliveries.length })

/-- Handles an event and hands over what it has to tell. -/
def handle (script : Script) (loop : Loop) (event : Event) : List Call × Loop :=
  let (lobby, messages) := loop.lobby.handle event
  script.flush { loop with lobby, outbox := loop.outbox.post messages }

def handleAll (script : Script) : Loop → List Event → List Call × Loop
  | loop, [] => ([], loop)
  | loop, event :: events =>
    let (calls, loop) := script.handle loop event
    let (others, loop) := script.handleAll loop events
    (calls ++ others, loop)

/-- Takes batches until one is announced with a count of zero or there are none
    left, and handles what waits after each.  Answers the calls made, what the
    server holds in the end, and what ended the run. -/
def handleBatches (script : Script) : Loop → List Batch → List Call × Loop × Ending
  | loop, [] => ([], loop, script.ending)
  | loop, batch :: batches =>
    let polled := { loop with events := loop.events ++ batch.events }
    if batch.count = 0 then ([.poll], polled, .stopped)
    else
      let (calls, loop) := script.handleAll { polled with events := [] } polled.events
      let (others, loop, cause) := script.handleBatches loop batches
      (.poll :: calls ++ others, loop, cause)

end Script

/-- Runs the server on a transport that follows a script. -/
def Lobby.serve (lobby : Lobby) (script : Script) : Report :=
  let (calls, loop, cause) := script.handleBatches { lobby } script.batches
  { calls := calls ++ [.shutdown]
    lobby := loop.lobby
    cause
    result :=
      match script.shutdownError with
      | none => .ok ()
      | some error => .error (.transport error) }

namespace Report

/-- The sends before the first poll of a list of calls, and those after each poll. -/
def splitAtPolls : List Call →
    List (Delivery × Option TransportError) × List (List (Delivery × Option TransportError))
  | [] => ([], [])
  | .poll :: calls =>
    let (first, others) := splitAtPolls calls
    ([], first :: others)
  | .send delivery refused :: calls =>
    let (first, others) := splitAtPolls calls
    ((delivery, refused) :: first, others)
  | .shutdown :: calls => splitAtPolls calls

/-- The packets handed over and what came of each, batch by batch. -/
def sends (report : Report) : List (List (Delivery × Option TransportError)) :=
  (splitAtPolls report.calls).2

def shutdowns (report : Report) : Nat := report.calls.count .shutdown

end Report

end Rendezvous

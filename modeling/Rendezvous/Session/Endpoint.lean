import Rendezvous.Admission.Key
import Rendezvous.Server.Event

/-! # The endpoint

An endpoint listens for peers, admits those that present its key, and carries
packets to and from them.  Admitted peers are numbered from 1; a peer that is
turned away takes no number.

The server is not told at once of what happens: events wait until it polls for them.
In the same way packets wait in the queue of a peer until its writer runs.  Polling
and writing are actions of their own (`poll`, `write`, `settle`), so events and packets
pile up when the server or a writer falls behind.

`Endpoint.perform` carries out one `Action` of a peer, of the server or of a writer,
and answers what comes of it as a list of `Observation`s.
-/

namespace Rendezvous.Session

open Rendezvous.Admission (UpgradeRequest)
open Rendezvous.Wire (Bytes)

/-- How many packets may wait for one peer. -/
def queueCapacity : Nat := 1024

/-- How many events one poll hands over at most. -/
def batchLimit : Nat := 256

inductive Frame where
  | binary (data : Bytes)
  | text (text : String)
  | ping (data : Bytes)
  deriving DecidableEq, Repr

/-- How a peer goes away: with a closing handshake, or without one, for a reason that its
    link gives. -/
inductive Parting where
  | closed
  | aborted (reason : String)
  deriving DecidableEq, Repr

def Parting.reason : Parting → String
  | .closed => "closed by peer"
  | .aborted reason => reason

inductive Handshake where
  | admitted (c : ConnectionId)
  | refused
  | unanswered
  deriving DecidableEq, Repr

namespace Handshake

/-- The status of the response; zero where there is none. -/
def status : Handshake → Nat
  | .admitted _ => 101
  | .refused => 403
  | .unanswered => 0

def body : Handshake → String
  | .refused => "invalid connection key"
  | .admitted _ | .unanswered => ""

end Handshake

/-- What is held for a peer as long as its frames are read. -/
inductive Link where
  /-- These packets wait for its writer, oldest first. -/
  | writable (waiting : List Bytes)
  /-- Nothing more goes out: its writer has failed, or the server has stopped. -/
  | shut
  deriving DecidableEq, Repr

namespace Link

def waiting : Link → List Bytes
  | .writable packets => packets
  | .shut => []

/-- The link once its writer has run until nothing waits. -/
def flushed : Link → Link
  | .writable _ => .writable []
  | .shut => .shut

end Link

/-- A listener with the peers that it has admitted. -/
structure Endpoint where
  key : String
  /-- Whether the network takes peers to the listener at all. -/
  reachable : Bool := true
  stopped : Bool := false
  admitted : Nat := 0
  links : Std.ExtTreeMap ConnectionId Link := ∅
  /-- The events that the server has not polled yet, oldest first. -/
  pending : List Event := []

inductive Action where
  | dial (peer : String) (request : UpgradeRequest)
  /-- Taking in a peer fails before it can ask. -/
  | acceptFails (cause : String)
  | frame (c : ConnectionId) (frame : Frame)
  | part (c : ConnectionId) (how : Parting)
  /-- The writer of a peer cannot write any more. -/
  | fail (c : ConnectionId)
  | send (c : ConnectionId) (data : Bytes) (mode : DeliveryMode)
  /-- The writer of a peer runs for so many packets, or until nothing waits. -/
  | write (c : ConnectionId) (count : Nat)
  | settle
  | poll
  | stop
  deriving DecidableEq, Repr

inductive Observation where
  | handshake (answer : Handshake)
  /-- An event is raised; it waits for the server. -/
  | event (event : Event)
  | pong (c : ConnectionId) (data : Bytes)
  | sent (c : ConnectionId) (refused : Option TransportError)
  | delivered (c : ConnectionId) (packets : List Bytes)
  | hungUp (c : ConnectionId)
  /-- A poll hands over events, or waits for some. -/
  | polled (events : Option (List Event))
  deriving DecidableEq, Repr

namespace Endpoint

/-- How many peers have a queue.  Nobody has one once the server has stopped, although
    frames may still be read. -/
def size (endpoint : Endpoint) : Nat := if endpoint.stopped then 0 else endpoint.links.size

def raise (endpoint : Endpoint) (event : Event) : List Observation × Endpoint :=
  ([.event event], { endpoint with pending := endpoint.pending ++ [event] })

def dial (endpoint : Endpoint) (peer : String) (request : UpgradeRequest) :
    List Observation × Endpoint :=
  if endpoint.stopped ∨ ¬endpoint.reachable then ([.handshake .unanswered], endpoint)
  else if Admission.admits endpoint.key request then
    let number := endpoint.admitted + 1
    let c : ConnectionId := ⟨UInt64.ofNat number⟩
    let (seen, endpoint) := endpoint.raise (.connected c peer)
    (.handshake (.admitted c) :: seen,
      { endpoint with admitted := number, links := endpoint.links.insert c (.writable []) })
  else ([.handshake .refused], endpoint)

def acceptFails (endpoint : Endpoint) (cause : String) : List Observation × Endpoint :=
  if endpoint.stopped then ([], endpoint)
  else endpoint.raise (.failed none (.acceptFailed cause))

/-- Takes a frame from a peer.  Frames are reliable and ordered.  A ping is answered on
    the spot, as long as anything can be written to the peer. -/
def frame (endpoint : Endpoint) (c : ConnectionId) (frame : Frame) :
    List Observation × Endpoint :=
  match endpoint.links[c]?, frame with
  | none, _ | some .shut, .ping _ => ([], endpoint)
  | some _, .binary data => endpoint.raise (.received c data .reliableOrdered)
  | some _, .text text => endpoint.raise (.received c (Wire.Utf8.encode text) .reliableOrdered)
  | some (.writable _), .ping data => ([.pong c data], endpoint)

/-- Lets a peer go; what waits for it is lost. -/
def part (endpoint : Endpoint) (c : ConnectionId) (how : Parting) :
    List Observation × Endpoint :=
  if endpoint.links.contains c then
    { endpoint with links := endpoint.links.erase c }.raise (.disconnected c how.reason)
  else ([], endpoint)

/-- Lets the writer of a peer fail; what waits for it is lost. -/
def fail (endpoint : Endpoint) (c : ConnectionId) : Endpoint :=
  if endpoint.links.contains c then { endpoint with links := endpoint.links.insert c .shut }
  else endpoint

/-- Queues a packet for a peer, or says why not.  Frames are always reliable and
    ordered, so every mode is carried as that. -/
def send (endpoint : Endpoint) (c : ConnectionId) (data : Bytes) (_ : DeliveryMode) :
    Option TransportError × Endpoint :=
  if endpoint.stopped then (some .shutdown, endpoint)
  else
    match endpoint.links[c]? with
    | none => (some (.unknownConnection c), endpoint)
    | some .shut => (some (.connectionClosed c), endpoint)
    | some (.writable waiting) =>
      if queueCapacity ≤ waiting.length then (some (.queueFull c), endpoint)
      else (none, { endpoint with links := endpoint.links.insert c (.writable (waiting ++ [data])) })

def write (endpoint : Endpoint) (c : ConnectionId) (count : Nat) :
    List Observation × Endpoint :=
  match endpoint.links[c]? with
  | none | some .shut => ([], endpoint)
  | some (.writable waiting) =>
    ([.delivered c (waiting.take count)],
      { endpoint with links := endpoint.links.insert c (.writable (waiting.drop count)) })

def deliveries (endpoint : Endpoint) : List Observation :=
  (endpoint.links.toList.filter fun entry => entry.2.waiting ≠ []).map fun entry =>
    .delivered entry.1 entry.2.waiting

def settle (endpoint : Endpoint) : List Observation × Endpoint :=
  (endpoint.deliveries, { endpoint with links := endpoint.links.map fun _ link => link.flushed })

/-- Hands over the events that wait, up to `batchLimit` of them.  It answers nothing while
    there is nothing to hand over, and no events at all once the server has stopped. -/
def poll (endpoint : Endpoint) : Option (List Event) × Endpoint :=
  if endpoint.stopped then (some [], endpoint)
  else if endpoint.pending = [] then (none, endpoint)
  else
    (some (endpoint.pending.take batchLimit),
      { endpoint with pending := endpoint.pending.drop batchLimit })

/-- The peers that are disconnected when the server stops: those whose writers are there to
    tell them. -/
def farewells (endpoint : Endpoint) : List Observation :=
  (endpoint.links.toList.filter fun entry => entry.2 ≠ .shut).map fun entry => .hungUp entry.1

/-- Stops listening and disconnects everybody, once what waits is delivered.  Peers may go
    on sending until they part, but no poll tells of it. -/
def stop (endpoint : Endpoint) : List Observation × Endpoint :=
  if endpoint.stopped then ([], endpoint)
  else
    (endpoint.deliveries ++ endpoint.farewells,
      { endpoint with stopped := true, links := endpoint.links.map fun _ _ => .shut })

def perform (endpoint : Endpoint) : Action → List Observation × Endpoint
  | .dial peer request => endpoint.dial peer request
  | .acceptFails cause => endpoint.acceptFails cause
  | .frame c frame => endpoint.frame c frame
  | .part c how => endpoint.part c how
  | .fail c => ([], endpoint.fail c)
  | .send c data mode =>
    let (refused, endpoint) := endpoint.send c data mode
    ([.sent c refused], endpoint)
  | .write c count => endpoint.write c count
  | .settle => endpoint.settle
  | .poll =>
    let (events, endpoint) := endpoint.poll
    ([.polled events], endpoint)
  | .stop => endpoint.stop

def performAll (endpoint : Endpoint) : List Action → List Observation × Endpoint
  | [] => ([], endpoint)
  | action :: actions =>
    let (seen, endpoint) := endpoint.perform action
    let (others, endpoint) := endpoint.performAll actions
    (seen ++ others, endpoint)

end Endpoint

end Rendezvous.Session

import Rendezvous.Proofs.Server.Confined
import Rendezvous.Session.Endpoint

/-! # Logs

A log says what was done at an endpoint and what came of it.  All that is claimed
about a connection is read off logs: which peers were admitted under its number
(`stays`), which events were raised about it (`events`) and handed over by polls
(`polled`), which packets were taken for it (`accepted`) and which its peer got
(`delivered`).

`transcript` says what should be raised of a connection from what its peer does, and
`link?` what should be held for it, going by the log alone.
-/

namespace Rendezvous.Session

open Rendezvous.Wire (Bytes)

/-- Something that was done at an endpoint, and what came of it. -/
structure Entry where
  action : Action
  seen : List Observation

namespace Endpoint

def log (endpoint : Endpoint) : List Action → List Entry
  | [] => []
  | action :: actions =>
    ⟨action, (endpoint.perform action).1⟩ :: (endpoint.perform action).2.log actions

def after (endpoint : Endpoint) (actions : List Action) : Endpoint :=
  actions.foldl (fun endpoint action => (endpoint.perform action).2) endpoint

theorem performAll_eq (endpoint : Endpoint) (actions : List Action) :
    endpoint.performAll actions =
      ((endpoint.log actions).flatMap Entry.seen, endpoint.after actions) := by
  induction actions generalizing endpoint with
  | nil => rfl
  | cons action actions inductionHypothesis =>
    simp only [performAll, inductionHypothesis]
    rfl

theorem after_append (endpoint : Endpoint) (early late : List Action) :
    endpoint.after (early ++ late) = (endpoint.after early).after late := List.foldl_append ..

theorem log_append (endpoint : Endpoint) (early late : List Action) :
    endpoint.log (early ++ late) = endpoint.log early ++ (endpoint.after early).log late := by
  induction early generalizing endpoint with
  | nil => rfl
  | cons action early inductionHypothesis =>
    rw [List.cons_append, log, log, inductionHypothesis]
    rfl

end Endpoint

/-! ## Entries -/

namespace Observation

def raised? : Observation → Option Event
  | .event raised => some raised
  | _ => none

def surfaced : Observation → List Event
  | .polled (some events) => events
  | _ => []

def handed (c : ConnectionId) : Observation → List Bytes
  | .delivered d packets => if d = c then packets else []
  | _ => []

end Observation

def about (c : ConnectionId) (events : List Event) : List Event :=
  events.filter (·.connection? = some c)

namespace Entry

/-- The number that a peer was admitted under, and its address. -/
def admission? (entry : Entry) : Option (ConnectionId × String) :=
  match entry.action, entry.seen with
  | .dial peer _, .handshake (.admitted c) :: _ => some (c, peer)
  | _, _ => none

def peer? (entry : Entry) (c : ConnectionId) : Option String :=
  (entry.admission?.filter (·.1 = c)).map (·.2)

def raised (entry : Entry) : List Event := entry.seen.filterMap Observation.raised?

def polled (entry : Entry) : List Event := entry.seen.flatMap Observation.surfaced

def events (entry : Entry) (c : ConnectionId) : List Event := about c entry.raised

/-- The packet that was sent to a connection, unless it was refused. -/
def accepted (entry : Entry) (c : ConnectionId) : List Bytes :=
  match entry.action, entry.seen with
  | .send d data _, [.sent _ none] => if d = c then [data] else []
  | _, _ => []

def delivered (entry : Entry) (c : ConnectionId) : List Bytes :=
  entry.seen.flatMap (Observation.handed c)

end Entry

section Told

variable {entry : Entry} {event : Event} {c d : ConnectionId}

theorem Entry.events_here (told : entry.raised = [event])
    (happens : event.connection? = some c) : entry.events c = [event] := by
  rw [events, told, about, List.filter_singleton, happens, decide_eq_true rfl, cond_true]

theorem Entry.events_elsewhere (told : entry.raised = [event])
    (other : event.connection? ≠ some c) : entry.events c = [] := by
  rw [events, told, about, List.filter_singleton, decide_eq_false other, cond_false]

end Told

/-! ## Whole logs -/

def admissions (log : List Entry) : List (ConnectionId × String) :=
  log.filterMap Entry.admission?

def raised (log : List Entry) : List Event := log.flatMap Entry.raised

def polled (log : List Entry) : List Event := log.flatMap Entry.polled

def events (c : ConnectionId) (log : List Entry) : List Event := log.flatMap (·.events c)

def accepted (c : ConnectionId) (log : List Entry) : List Bytes := log.flatMap (·.accepted c)

def delivered (c : ConnectionId) (log : List Entry) : List Bytes := log.flatMap (·.delivered c)

def untilStop (log : List Entry) : List Entry := log.takeWhile (·.action ≠ .stop)

def opening (c : ConnectionId) (log : List Entry) : List Entry :=
  log.takeWhile fun entry => entry.peer? c = none

/-- A peer that was admitted, and what was done from then on until the number was
    given again, if it ever was. -/
structure Stay where
  peer : String
  since : List Entry

def stays (c : ConnectionId) : List Entry → List Stay
  | [] => []
  | entry :: log =>
    match entry.peer? c with
    | some peer => ⟨peer, opening c log⟩ :: stays c log
    | none => stays c log

@[simp]
theorem events_cons (c : ConnectionId) (entry : Entry) (log : List Entry) :
    events c (entry :: log) = entry.events c ++ events c log := rfl

@[simp]
theorem accepted_cons (c : ConnectionId) (entry : Entry) (log : List Entry) :
    accepted c (entry :: log) = entry.accepted c ++ accepted c log := rfl

@[simp]
theorem delivered_cons (c : ConnectionId) (entry : Entry) (log : List Entry) :
    delivered c (entry :: log) = entry.delivered c ++ delivered c log := rfl

theorem about_raised (c : ConnectionId) (log : List Entry) : about c (raised log) = events c log :=
  List.filter_flatMap

theorem Endpoint.untilStop_log (endpoint : Endpoint) (actions : List Action) :
    untilStop (endpoint.log actions) = endpoint.log (actions.takeWhile (· ≠ .stop)) := by
  induction actions generalizing endpoint with
  | nil => rfl
  | cons action actions inductionHypothesis =>
    rw [log, untilStop, List.takeWhile_cons, List.takeWhile_cons]
    split
    · exact congrArg _ (inductionHypothesis _)
    · rfl

section Stays

variable {c : ConnectionId} {entry : Entry} {log : List Entry}

theorem opening_admission {peer : String} (admitted : entry.peer? c = some peer) :
    opening c (entry :: log) = [] := by
  rw [opening, List.takeWhile_cons_of_neg]
  simp [admitted]

theorem opening_cons (other : entry.peer? c = none) :
    opening c (entry :: log) = entry :: opening c log := by
  rw [opening, List.takeWhile_cons_of_pos (by simp [other])]
  rfl

theorem stays_admission {peer : String} (admitted : entry.peer? c = some peer) :
    stays c (entry :: log) = ⟨peer, opening c log⟩ :: stays c log := by
  rw [stays, admitted]

theorem stays_cons (other : entry.peer? c = none) : stays c (entry :: log) = stays c log := by
  rw [stays, other]

theorem opening_eq_self (last : stays c log = []) : opening c log = log := by
  induction log with
  | nil => rfl
  | cons entry log inductionHypothesis =>
    cases admitted : entry.peer? c with
    | some peer => rw [stays_admission admitted] at last; cases last
    | none =>
      rw [stays_cons admitted] at last
      rw [opening_cons admitted, inductionHypothesis last]

/-- Whatever is gathered from a log is gathered before the first stay and in the stays. -/
theorem flatMap_stays {α : Type} (gather : Entry → List α) (first : String → List α)
    (admitting : ∀ entry ∈ log, ∀ peer, entry.peer? c = some peer → gather entry = first peer) :
    log.flatMap gather = (opening c log).flatMap gather ++
      (stays c log).flatMap fun stay => first stay.peer ++ stay.since.flatMap gather := by
  induction log with
  | nil => rfl
  | cons entry log inductionHypothesis =>
    have split := inductionHypothesis fun entry listed =>
      admitting entry (List.mem_cons_of_mem _ listed)
    rw [List.flatMap_cons, split]
    cases admitted : entry.peer? c with
    | some peer =>
      rw [opening_admission admitted, stays_admission admitted,
        admitting entry List.mem_cons_self peer admitted]
      simp
    | none =>
      rw [opening_cons admitted, stays_cons admitted]
      simp

end Stays

/-! ## What should be -/

/-- What a frame carries, if the server is told of it. -/
def Frame.data? : Frame → Option Bytes
  | .binary data => some data
  | .text content => some (Wire.Utf8.encode content)
  | .ping _ => none

namespace Action

/-- What is raised of a peer that is there when this is done. -/
def raises (c : ConnectionId) : Action → List Event
  | .frame d sent =>
    if d = c then sent.data?.toList.map fun data => .received c data .reliableOrdered else []
  | .part d how => if d = c then [.disconnected c how.reason] else []
  | _ => []

def parts (c : ConnectionId) : Action → Bool
  | .part d _ => d = c
  | _ => false

/-- Whether nothing more goes out to the peer after this. -/
def shuts (c : ConnectionId) : Action → Bool
  | .fail d => d = c
  | .stop => true
  | _ => false

/-- Whether the writers run until nothing waits. -/
def settles : Action → Bool
  | .settle => true
  | _ => false

end Action

/-- What is raised of a peer, from its admission on: what it sends, until it goes away. -/
def transcript (c : ConnectionId) : List Action → List Event
  | [] => []
  | action :: actions => action.raises c ++ if action.parts c then [] else transcript c actions

/-- Whether these events are the last of a peer: it is gone. -/
def tellsGone (told : List Event) : Bool :=
  told.any fun
    | .disconnected _ _ => true
    | _ => false

theorem tellsGone_transcript (c : ConnectionId) (actions : List Action) :
    tellsGone (transcript c actions) = actions.any (Action.parts c) := by
  induction actions with
  | nil => rfl
  | cons action actions inductionHypothesis =>
    have raises : tellsGone (action.raises c) = action.parts c := by
      cases action with
      | frame d sent =>
        simp only [Action.raises]
        split
        · cases sent <;> rfl
        · rfl
      | part d how =>
        simp only [Action.raises, Action.parts]
        split
        next same => simp [tellsGone, same]
        next other => simp [tellsGone, other]
      | _ => rfl
    rw [tellsGone] at raises
    rw [transcript, List.any_cons, tellsGone, List.any_append, raises]
    cases action.parts c with
    | true => rfl
    | false => exact inductionHypothesis

/-- Nothing is raised of pings, nor of anything that comes after the end. -/
example :
    transcript ⟨1⟩ [.frame ⟨1⟩ (.binary [7]), .frame ⟨1⟩ (.ping [8]), .frame ⟨2⟩ (.binary [9]),
      .part ⟨1⟩ .closed, .frame ⟨1⟩ (.binary [7])] =
      [.received ⟨1⟩ [7] .reliableOrdered, .disconnected ⟨1⟩ "closed by peer"] := by
  decide

/-- What is held for a peer: the packets that were taken and that it has not got, unless
    its writer has failed or the server has stopped.  There is nothing, not even an empty
    queue, if nobody was admitted under the number, or the latest who was is gone. -/
def link? (c : ConnectionId) (log : List Entry) : Option Link :=
  match (stays c log).getLast? with
  | none => none
  | some stay =>
    if tellsGone (events c stay.since) then none
    else if stay.since.any (·.action.shuts c) then some .shut
    else some (.writable ((accepted c stay.since).drop (delivered c stay.since).length))

/-- What waits where something is held, if anything is. -/
def waitingAt (link? : Option Link) : List Bytes := link?.elim [] Link.waiting

def number (n : Nat) : ConnectionId := ⟨UInt64.ofNat n⟩

end Rendezvous.Session

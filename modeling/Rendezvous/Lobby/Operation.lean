import Rendezvous.Lobby.Basic

/-! # Operations as data

An `Operation` is one thing that a connection can do in the lobby, with its
arguments.  `Lobby.perform` carries it out, so a history of the lobby is a list
of connections and operations.
-/

namespace Rendezvous

open Rendezvous.Wire (Bytes)

/-- Something that a connection can do in the lobby. -/
inductive Operation where
  | connect
  | disconnect
  | setName (name : String)
  | create
  | join (code : RoomCode)
  | leave
  | start
  | close
  | relay (data : Bytes) (mode : DeliveryMode)
  deriving DecidableEq, Repr

/-- What an operation answers when it is not declined. -/
inductive Reply where
  | done
  | connected (id : ClientId)
  /-- The record that is removed, if there was one. -/
  | removed (client : Option Client)
  | opened (code : RoomCode)
  /-- How many connections a packet is passed on to. -/
  | passedOn (count : Nat)
  deriving DecidableEq, Repr

def Outcome.map {α β : Type} (f : α → β) (outcome : Outcome α) : Outcome β :=
  ⟨f outcome.value, outcome.lobby, outcome.messages⟩

def Lobby.perform (lobby : Lobby) (c : ConnectionId) : Operation → Outcome (Answer Reply)
  | .connect => (lobby.connect c).map fun id => .ok (.connected id)
  | .disconnect => (lobby.disconnect c).map fun client => .ok (.removed client)
  | .setName name => (lobby.setName c name).map (·.map fun _ => .done)
  | .create => (lobby.create c).map (·.map .opened)
  | .join code => (lobby.join c code).map (·.map fun _ => .done)
  | .leave => (lobby.leave c).map (·.map fun _ => .done)
  | .start => (lobby.start c).map (·.map fun _ => .done)
  | .close => (lobby.close c).map (·.map fun _ => .done)
  | .relay data mode => (lobby.relay c data mode).map (·.map .passedOn)

end Rendezvous

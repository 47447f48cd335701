import Rendezvous.Lobby.Operation
import Rendezvous.Server.Event
import Rendezvous.Wire.Command

/-! # Handling events

Each event of the transport is one step of the lobby.  A control packet that
carries a command is the operation that the command names; its sender is told
when the operation is declined, unless the lobby does not know the sender.  Any
other packet is passed on.  What cannot be read is dropped without a word.
-/

namespace Rendezvous

open Rendezvous.Wire (Bytes Command Packet)

def Operation.ofCommand : Command → Operation
  | .createRoom => .create
  | .joinRoom code => .join code
  | .leaveRoom => .leave
  | .startRoom => .start
  | .closeRoom => .close
  | .setName name => .setName name

namespace Lobby

/-- What a sender is told when its command is declined. -/
def refusalNotice (c : ConnectionId) (refusal : Refusal) : List Message :=
  if refusal.isReportable then [Message.notify c (.invalid refusal.message)] else []

/-- Carries out a command and tells its sender if it is declined. -/
def execute (lobby : Lobby) (c : ConnectionId) (command : Command) : Lobby × List Message :=
  let outcome := lobby.perform c (.ofCommand command)
  match outcome.value with
  | .ok _ => (outcome.lobby, outcome.messages)
  | .error refusal => (outcome.lobby, outcome.messages ++ refusalNotice c refusal)

def receive (lobby : Lobby) (c : ConnectionId) (data : Bytes) (mode : DeliveryMode) :
    Lobby × List Message :=
  match Packet.split data with
  | .error _ => (lobby, [])
  | .ok (.relayed data) =>
    let outcome := lobby.relay c data mode
    (outcome.lobby, outcome.messages)
  | .ok (.control code fields) =>
    match Command.ofFields code fields with
    | .error _ => (lobby, [])
    | .ok command => lobby.execute c command

/-- Handles an event: the lobby after it, and what it has to tell. -/
def handle (lobby : Lobby) : Event → Lobby × List Message
  | .connected c _ =>
    let outcome := lobby.connect c
    (outcome.lobby, outcome.messages)
  | .disconnected c _ =>
    let outcome := lobby.disconnect c
    (outcome.lobby, outcome.messages)
  | .received c data mode => lobby.receive c data mode
  | .failed _ _ => (lobby, [])

end Lobby

end Rendezvous

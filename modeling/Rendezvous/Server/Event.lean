import Rendezvous.Lobby.Message

/-! # What happens on connections

A transport carries packets to and from connections.  It reports what happens
there as `Event`s, and it fails with a `TransportError`.
-/

namespace Rendezvous

open Rendezvous.Wire (Bytes)

inductive TransportError where
  | bindFailed (cause : String)
  | acceptFailed (cause : String)
  | unknownConnection (connection : ConnectionId)
  /-- The connection is closing and takes no more packets. -/
  | connectionClosed (connection : ConnectionId)
  | queueFull (connection : ConnectionId)
  | shutdown
  deriving DecidableEq, Repr

def TransportError.message : TransportError → String
  | .bindFailed cause => s!"bind failed: {cause}"
  | .acceptFailed cause => s!"accept failed: {cause}"
  | .unknownConnection connection => s!"unknown connection {connection}"
  | .connectionClosed connection => s!"connection {connection} closed"
  | .queueFull connection => s!"outbound queue for {connection} is full"
  | .shutdown => "transport shut down"

/-- Something that happened on a transport. -/
inductive Event where
  | connected (connection : ConnectionId) (peer : String)
  | disconnected (connection : ConnectionId) (reason : String)
  | received (connection : ConnectionId) (data : Bytes) (mode : DeliveryMode)
  /-- Something failed that no admitted connection accounts for. -/
  | failed (peer : Option String) (error : TransportError)
  deriving DecidableEq, Repr

end Rendezvous

import Rendezvous.Identity

/-! # Refusals

Why the lobby declines an operation.  `Refusal.message` is the reason that the
client is told; `Refusal.isReportable` says whether there is a client to tell.
-/

namespace Rendezvous

/-- Why the lobby declines an operation. -/
inductive Refusal where
  | alreadyInRoom
  | invalidRoomCode (code : RoomCode)
  | notInRoom
  | hostCannotLeave
  | guestCannotStart
  | guestCannotClose
  | codesExhausted
  | nameTooLong (length limit : Nat)
  | unknownConnection (connection : ConnectionId)
  deriving DecidableEq, Repr

namespace Refusal

def message : Refusal → String
  | .alreadyInRoom => "Client already in room"
  | .invalidRoomCode _ => "Invalid Room Code"
  | .notInRoom => "Client not in room"
  | .hostCannotLeave => "Host attempted to leave room"
  | .guestCannotStart => "Guest attempted to start room"
  | .guestCannotClose => "Guest attempted to close room"
  | .codesExhausted => "No room codes available"
  | .nameTooLong _ _ => "Name too long"
  | .unknownConnection connection => s!"unknown connection {connection}"

/-- Whether the client is told.  An unknown connection has nobody to tell. -/
def isReportable : Refusal → Bool
  | .unknownConnection _ => false
  | _ => true

end Refusal

end Rendezvous

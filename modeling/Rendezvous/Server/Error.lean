import Rendezvous.Lobby.Refusal
import Rendezvous.Server.Event
import Rendezvous.Wire.Error

/-! # Whatever can go wrong

One type for the failures of every layer.  It adds no words of its own.
-/

namespace Rendezvous

open Rendezvous.Wire (WireError)

inductive ServerError where
  | transport (error : TransportError)
  | wire (error : WireError)
  | lobby (refusal : Refusal)
  deriving DecidableEq, Repr

def ServerError.message : ServerError → String
  | .transport error => error.message
  | .wire error => error.message
  | .lobby refusal => refusal.message

end Rendezvous

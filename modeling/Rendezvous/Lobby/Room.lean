import Rendezvous.Identity

/-! # Rooms

A room has one host, who opens it, and guests in the order in which they joined.
The host is no guest and is never replaced.
-/

namespace Rendezvous

structure Room where
  code : RoomCode
  host : ConnectionId
  guests : List ConnectionId := []
  deriving DecidableEq, Repr

inductive Role where
  | outside
  | guest (code : RoomCode)
  | host (code : RoomCode)
  deriving DecidableEq, Repr

namespace Room

/-- The host, then the guests in the order in which they joined. -/
def members (room : Room) : List ConnectionId := room.host :: room.guests

def addGuest (room : Room) (c : ConnectionId) : Room :=
  { room with guests := room.guests ++ [c] }

def removeGuest (room : Room) (c : ConnectionId) : Room :=
  { room with guests := room.guests.erase c }

def roleOf (room : Room) (c : ConnectionId) : Role :=
  if room.host = c then .host room.code else .guest room.code

end Room

end Rendezvous

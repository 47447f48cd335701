import Rendezvous.Lobby.Limits
import Rendezvous.Lobby.Refusal
import Rendezvous.Lobby.Room

/-! # Open rooms and their codes

The open rooms, each under its code, and how a new room gets its code: codes are
drawn at random a limited number of times, and if every draw is taken, one more
draw says where to start looking through the whole space.

Random numbers come from `Draws`, a stream together with the count of numbers
taken from it.  No number is taken when no code can be free.
-/

namespace Rendezvous

/-! ## Draws -/

/-- A stream of random numbers, and how many of them have been taken. -/
structure Draws where
  source : Nat → UInt32
  taken : Nat := 0

namespace Draws

/-- The numbers of a list, then zeros. -/
def ofList (numbers : List UInt32) : Draws :=
  let table := numbers.toArray
  { source := fun i => table.getD i 0 }

def next (draws : Draws) (bound : UInt32) : UInt32 × Draws :=
  (draws.source draws.taken % bound, { draws with taken := draws.taken + 1 })

end Draws

/-! ## Rooms -/

abbrev RoomTable := Std.ExtTreeMap RoomCode Room

namespace RoomTable

/-- Adds a room under its own code, unless that code is taken.  Says whether the
    room was added. -/
def add (rooms : RoomTable) (room : Room) : Bool × RoomTable :=
  (!rooms.contains room.code, rooms.insertIfNew room.code room)

def isFree (rooms : RoomTable) (code : RoomCode) : Bool := !rooms.contains code

/-- Draws at most `attempts` codes and stops at the first free one. -/
def drawFree (rooms : RoomTable) (space : UInt32) : Nat → Draws → Option RoomCode × Draws
  | 0, draws => (none, draws)
  | attempts + 1, draws =>
    let drawn := draws.next space
    if rooms.isFree ⟨drawn.1⟩ then (some ⟨drawn.1⟩, drawn.2)
    else drawFree rooms space attempts drawn.2

/-- The code that lies `offset` after `start`, going round the space. -/
def probe (space start offset : UInt32) : RoomCode :=
  ⟨((start.toUInt64 + offset.toUInt64) % space.toUInt64).toUInt32⟩

/-- The first free code among those at `count` successive offsets from `start`. -/
def scanFree (rooms : RoomTable) (space start : UInt32) : UInt32 → Nat → Option RoomCode
  | _, 0 => none
  | offset, count + 1 =>
    let code := probe space start offset
    if rooms.isFree code then some code else scanFree rooms space start (offset + 1) count

/-- Picks a code that no open room uses. -/
def allocate (rooms : RoomTable) (limits : Limits) (draws : Draws) :
    Except Refusal RoomCode × Draws :=
  let space := limits.codeSpace
  if space = 0 ∨ space.toNat ≤ rooms.size then (.error .codesExhausted, draws)
  else
    match rooms.drawFree space limits.drawAttempts.toNat draws with
    | (some code, draws) => (.ok code, draws)
    | (none, draws) =>
      let start := draws.next space
      match rooms.scanFree space start.1 0 space.toNat with
      | some code => (.ok code, start.2)
      | none => (.error .codesExhausted, start.2)

end RoomTable

end Rendezvous

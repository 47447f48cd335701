import Rendezvous.Wire.Error
import Rendezvous.Wire.LittleEndian

/-! # Packets

The first byte of a packet says what it is.  Zero marks a control packet: a code
follows, then the fields that go with that code.  Any other first byte belongs
to a packet that is passed on untouched.
-/

namespace Rendezvous.Wire

/-- What the first byte makes of a packet. -/
inductive Packet where
  | control (code : UInt8) (fields : Bytes)
  /-- A packet for the other side of a room, whole. -/
  | relayed (data : Bytes)
  deriving DecidableEq, Repr

namespace Packet

/-- The first byte of every control packet. -/
def controlByte : UInt8 := 0

def encode : Packet → Bytes
  | .control code fields => controlByte :: code :: fields
  | .relayed data => data

/-- Sorts a packet by its first byte.  An empty packet and a control byte with no
    code are too short. -/
def split : Bytes → Except WireError Packet
  | [] => .error (.tooShort 0)
  | first :: rest =>
    if first = controlByte then
      match rest with
      | [] => .error (.tooShort 1)
      | code :: fields => .ok (.control code fields)
    else .ok (.relayed (first :: rest))

/-- Sorting loses nothing: what a packet is made of are its bytes. -/
theorem encode_of_split {bytes : Bytes} {packet : Packet} (sorted : split bytes = .ok packet) :
    packet.encode = bytes := by
  rw [split.eq_def] at sorted
  split at sorted
  next => cases sorted
  next first rest =>
    split at sorted
    next control =>
      cases rest with
      | nil => cases sorted
      | cons code fields =>
        cases sorted
        rw [encode, control]
    next => cases sorted; rfl

end Packet

end Rendezvous.Wire

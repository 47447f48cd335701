/-! # Little-endian words

Packets carry numbers as a fixed number of base-256 digits, lowest digit first.
`encode` writes the digits of a number and `decode` reads them back.
-/

namespace Rendezvous.Wire

/-- A packet, or a part of one. -/
abbrev Bytes := List UInt8

namespace LittleEndian

/-- The lowest `width` base-256 digits of a number, lowest first. -/
def encode : Nat → Nat → Bytes
  | 0, _ => []
  | width + 1, n => UInt8.ofNat n :: encode width (n / 256)

/-- The number that a list of base-256 digits denotes, lowest first. -/
def decode : Bytes → Nat
  | [] => 0
  | digit :: digits => digit.toNat + 256 * decode digits

end LittleEndian

end Rendezvous.Wire

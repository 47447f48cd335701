/-! # Limits

What the lobby is configured with.
-/

namespace Rendezvous

structure Limits where
  /-- Room codes are the numbers below this, so it also caps how many rooms are open. -/
  codeSpace : UInt32 := 10000
  /-- How many codes are drawn at random before the space is scanned for a free one. -/
  drawAttempts : UInt32 := 32
  maxNameLength : Nat := 32
  deriving DecidableEq, Repr

end Rendezvous

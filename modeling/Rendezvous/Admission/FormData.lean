import Rendezvous.Numeral
import Rendezvous.Wire.Utf8

/-! # Form data

The parameters of a query: names and values joined by `=` and separated by `&`.
In each, a plus sign is a space, and a percent sign with two hexadecimal digits
is the byte that they denote; any other percent sign stands for itself.  The
bytes are then read as UTF-8, with U+FFFD for what is ill formed.
-/

namespace Rendezvous.Admission

open Rendezvous.Wire (Bytes)

namespace FormData

def ascii (c : Char) : UInt8 := UInt8.ofNat c.toNat

def plusToSpace (bytes : Bytes) : Bytes :=
  bytes.map fun b => if b = ascii '+' then ascii ' ' else b

def hexByte? (high low : UInt8) : Option UInt8 := do
  let high ← Numeral.hexDigit? (Char.ofNat high.toNat)
  let low ← Numeral.hexDigit? (Char.ofNat low.toNat)
  some (UInt8.ofNat (high * 16 + low))

/-- Puts the bytes that they denote for percent signs with two digits. -/
def percentDecode : Bytes → Bytes
  | [] => []
  | [a] => [a]
  | [a, b] => [a, b]
  | a :: b :: c :: rest =>
    if a = ascii '%' then
      match hexByte? b c with
      | some byte => byte :: percentDecode rest
      | none => a :: percentDecode (b :: c :: rest)
    else a :: percentDecode (b :: c :: rest)

def decodeText (bytes : Bytes) : String :=
  Wire.Utf8.decodeLossy (percentDecode (plusToSpace bytes))

/-- The name and the value of a parameter: what stands before its first `=`, and
    what stands after. -/
def parameter (piece : Bytes) : String × String :=
  (decodeText (piece.takeWhile (· ≠ ascii '=')),
    decodeText ((piece.dropWhile (· ≠ ascii '=')).drop 1))

def parse (query : Bytes) : List (String × String) :=
  ((query.splitOnP (· == ascii '&')).filter (· ≠ [])).map parameter

end FormData

end Rendezvous.Admission

import Rendezvous.Numeral

/-! # IP addresses

Addresses of four octets and of eight groups, how they are read, how they are
written, and which of them are special.

An address of octets is read strictly, as four decimal numbers, or loosely.  In
an address of groups, a double colon stands for one or more groups of zeros, and
the last two groups may be written as four octets.
-/

namespace Rendezvous

inductive IpAddress where
  | v4 (a b c d : UInt8)
  | v6 (groups : Vector UInt16 8)
  deriving DecidableEq, Repr

def splitAt (separator : Char) (text : List Char) : List (List Char) :=
  text.splitOnP (· == separator)

namespace IpAddress

/-! ## Reading -/

/-- An octet: one to three digits with no leading zero. -/
def octet? (text : List Char) : Option UInt8 := do
  let n ← Numeral.natural? text
  if n < 256 ∧ text.length ≤ 3 ∧ (text.head? ≠ some '0' ∨ text.length = 1) then some (UInt8.ofNat n)
  else none

def octets? (text : List Char) : Option (UInt8 × UInt8 × UInt8 × UInt8) :=
  match splitAt '.' text with
  | [a, b, c, d] => do some (← octet? a, ← octet? b, ← octet? c, ← octet? d)
  | _ => none

/-- A group: one to four hexadecimal digits. -/
def group? (text : List Char) : Option UInt16 := do
  let n ← Numeral.inBase? 16 text
  if text.length ≤ 4 then some (UInt16.ofNat n) else none

def pairOctets : UInt8 × UInt8 × UInt8 × UInt8 → List UInt16
  | (a, b, c, d) =>
    [UInt16.ofNat (a.toNat * 256 + b.toNat), UInt16.ofNat (c.toNat * 256 + d.toNat)]

/-- Groups between colons.  Where `octetsAllowed`, the last may be four octets. -/
def groupsOfPieces? (octetsAllowed : Bool) : List (List Char) → Option (List UInt16)
  | [] => some []
  | [piece] =>
    match group? piece with
    | some group => some [group]
    | none => if octetsAllowed then (octets? piece).map pairOctets else none
  | piece :: pieces => do some ((← group? piece) :: (← groupsOfPieces? octetsAllowed pieces))

/-- Groups between colons; an empty text has none. -/
def groups? (octetsAllowed : Bool) (text : List Char) : Option (List UInt16) :=
  if text = [] then some [] else groupsOfPieces? octetsAllowed (splitAt ':' text)

/-- Splits a text at its first double colon. -/
def splitAtGap? : List Char → Option (List Char × List Char)
  | ':' :: ':' :: rest => some ([], rest)
  | c :: rest => (splitAtGap? rest).map fun (front, back) => (c :: front, back)
  | [] => none

def ofGroups? (groups : List UInt16) : Option IpAddress :=
  if h : groups.length = 8 then some (.v6 ⟨groups.toArray, by simpa using h⟩) else none

def v6? (text : List Char) : Option IpAddress :=
  match splitAtGap? text with
  | none => do ofGroups? (← groups? true text)
  | some (front, back) => do
    let front ← groups? false front
    let back ← groups? true back
    if front.length + back.length < 8 then
      ofGroups? (front ++ List.replicate (8 - front.length - back.length) 0 ++ back)
    else none

/-- A part of a loose address: decimal, octal after a zero, hexadecimal after `0x`. -/
def part? : List Char → Option Nat
  | '0' :: 'x' :: digits => Numeral.inBase? 16 digits
  | '0' :: 'X' :: digits => Numeral.inBase? 16 digits
  | '0' :: digits => Numeral.inBase? 8 ('0' :: digits)
  | digits => Numeral.inBase? 10 digits

/-- The number that parts denote in this many octets: each part but the last is
    one octet, and the last fills the octets that are left. -/
def ofParts? : Nat → List Nat → Option Nat
  | octets + 1, [last] => if last < 256 ^ (octets + 1) then some last else none
  | octets + 1, part :: parts =>
    if part < 256 then (part * 256 ^ octets + ·) <$> ofParts? octets parts else none
  | _, _ => none

/-- Reads an address of octets loosely: one to four parts between dots. -/
def loose? (text : List Char) : Option IpAddress := do
  let n ← ofParts? 4 (← (splitAt '.' text).mapM part?)
  some (.v4 (UInt8.ofNat (n / 0x1000000)) (UInt8.ofNat (n / 0x10000)) (UInt8.ofNat (n / 0x100))
    (UInt8.ofNat n))

/-! ## Special addresses -/

/-- An address of octets written in groups, as the address of octets that it is. -/
def unmapped : IpAddress → IpAddress
  | .v4 a b c d => .v4 a b c d
  | .v6 groups =>
    match groups.toList with
    | [0, 0, 0, 0, 0, 0xFFFF, high, low] =>
      .v4 (high / 256).toUInt8 high.toUInt8 (low / 256).toUInt8 low.toUInt8
    | _ => .v6 groups

def isUnspecified : IpAddress → Bool
  | .v4 a b c d => [a, b, c, d].all (· = 0)
  | .v6 groups => groups.toList.all (· = 0)

def isGroupMulticast : IpAddress → Bool
  | .v4 .. => false
  | .v6 groups => groups[0] &&& 0xFF00 = 0xFF00

/-- Whether the address means something on one link only, so that an interface has
    to be named with it. -/
def isLinkLocal : IpAddress → Bool
  | .v4 .. => false
  | .v6 groups => groups[0] &&& 0xFFC0 = 0xFE80 ∨ groups[0] &&& 0xFF0F = 0xFF02

/-! ## Writing -/

def renderOctets (a b c d : UInt8) : String := s!"{a}.{b}.{c}.{d}"

def renderGroup (group : UInt16) : String := String.ofList (Nat.toDigits 16 group.toNat)

def leadingZeros (groups : List UInt16) : Nat := (groups.takeWhile (· = 0)).length

/-- Where the longest run of zeros begins, and its length; the first of equals. -/
def longestGap : List UInt16 → Nat × Nat
  | [] => (0, 0)
  | group :: groups =>
    let (start, length) := longestGap groups
    let here := leadingZeros (group :: groups)
    if length ≤ here then (0, here) else (start + 1, length)

/-- Groups between colons, the longest run of at least two zeros as a double colon. -/
def renderGroups (groups : List UInt16) : String :=
  let render groups := ":".intercalate (List.map renderGroup groups)
  let (start, length) := longestGap groups
  if length < 2 then render groups
  else render (groups.take start) ++ "::" ++ render (groups.drop (start + length))

/-- The address as text.  An address of octets in groups shows its octets. -/
def render (ip : IpAddress) : String :=
  match ip, ip.unmapped with
  | .v4 .., .v4 a b c d => renderOctets a b c d
  | .v6 _, .v4 a b c d => "::ffff:" ++ renderOctets a b c d
  | _, .v6 groups => renderGroups groups.toList

end IpAddress

end Rendezvous

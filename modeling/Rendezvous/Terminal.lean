import Rendezvous.Wire.Utf8

/-! # Plain text

What the program writes does not go to a terminal, so `plain` takes out of a text
what only a terminal understands: control sequences, control strings, and control
characters that are not white space.

A sequence begins with the escape character.  What follows tells its kind, and
the kind tells how it ends; the escape character itself begins a new sequence at
any point.  White space within a sequence shows, and so does what follows it, up
to the next control character.
-/

namespace Rendezvous.Terminal

open Rendezvous.Wire (Bytes)

/-- What a terminal is reading. -/
inductive Phase where
  | ground
  | escape
  /-- An escape sequence that has begun with an intermediate byte. -/
  | intermediate
  /-- A control sequence, up to its final byte. -/
  | control
  | device
  | deviceParameters
  | deviceIntermediate
  /-- A string that ends with its terminator. -/
  | string
  /-- A command for the operating system, which a bell ends. -/
  | command
  deriving DecidableEq, Repr

def within (low high b : UInt8) : Bool := low ≤ b ∧ b ≤ high

def isBlank (b : UInt8) : Bool := b = 0x20 ∨ b = 0x09 ∨ b = 0x0A ∨ b = 0x0C ∨ b = 0x0D

namespace Phase

def next (phase : Phase) (b : UInt8) : Phase :=
  if b = 0x18 ∨ b = 0x1A then .ground
  else if b = 0x1B then .escape
  else match phase with
    | .ground => .ground
    | .escape =>
      if within 0x20 0x2F b then .intermediate
      else if b = 0x50 then .device
      else if b = 0x58 ∨ b = 0x5E ∨ b = 0x5F then .string
      else if b = 0x5B then .control
      else if b = 0x5D then .command
      else if within 0x30 0x7E b then .ground
      else .escape
    | .intermediate => if within 0x30 0x7E b then .ground else .intermediate
    | .control => if within 0x40 0x7E b then .ground else .control
    | .device =>
      if within 0x20 0x2F b then .deviceIntermediate
      else if within 0x30 0x3F b then .deviceParameters
      else if within 0x40 0x7E b then .string
      else .device
    | .deviceParameters =>
      if within 0x20 0x2F b then .deviceIntermediate
      else if within 0x3C 0x7E b then .string
      else .deviceParameters
    | .deviceIntermediate => if within 0x30 0x7E b then .string else .deviceIntermediate
    | .string => if b = 0x9C then .ground else .string
    | .command => if b = 0x07 then .ground else .command

/-- Whether a byte shows when nothing showed before it.  Bytes from 0xC2 on begin
    characters beyond ASCII. -/
def shows (phase : Phase) (b : UInt8) : Bool :=
  match phase with
  | .ground => within 0x20 0x7E b || isBlank b || 0xC2 ≤ b
  | .escape | .intermediate | .control => isBlank b && b ≠ 0x20
  | .device | .deviceParameters | .deviceIntermediate | .string | .command => false

end Phase

/-- The bytes that show.  While bytes show, `showing` holds, and only a control
    character ends that; the phase is then the one before they showed, unless a
    character beyond ASCII was among them. -/
def visible (showing : Bool) (phase : Phase) : Bytes → Bytes
  | [] => []
  | b :: rest =>
    if showing ∧ 0x80 ≤ b then b :: visible true .ground rest
    else if showing ∧ (within 0x20 0x7E b ∨ isBlank b) then b :: visible true phase rest
    else if phase.shows b then b :: visible true (phase.next b) rest
    else visible false (phase.next b) rest

/-- The text without what only a terminal understands. -/
def plain (text : String) : String :=
  Wire.Utf8.decodeLossy (visible false .ground (Wire.Utf8.encode text))

end Rendezvous.Terminal

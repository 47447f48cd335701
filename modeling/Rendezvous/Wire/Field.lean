import Rendezvous.Wire.Error
import Rendezvous.Wire.Utf8

/-! # Fields

A control packet is a sequence of typed fields: words of two, four or eight bytes in
little-endian order, and texts as a two-byte length and that many bytes of UTF-8.  `Field.encode` writes a field and `Kind.read` reads one of a given
kind.

A reader holds the unread bytes and keeps them when it fails, so reading can go
on after a failure.  A word that does not fit leaves the bytes as they were; a
text that does not fit has used up its length, and an ill-formed one its bytes
as well.
-/

namespace Rendezvous.Wire

/-- The most bytes that one text field carries. -/
def maxTextLength : Nat := 65535

inductive Kind where
  | word16
  | word32
  | word64
  | text
  deriving DecidableEq, Repr

inductive Field where
  | word16 (value : UInt16)
  | word32 (value : UInt32)
  | word64 (value : UInt64)
  | text (value : String)
  deriving DecidableEq, Repr

/-! ## Writing -/

/-- The bytes of a text field: its length and its longest prefix that fits. -/
def encodeText (s : String) : Bytes :=
  let kept := Utf8.longestPrefix maxTextLength s
  LittleEndian.encode 2 kept.utf8ByteSize ++ Utf8.encode kept

def Field.kind : Field → Kind
  | .word16 _ => .word16
  | .word32 _ => .word32
  | .word64 _ => .word64
  | .text _ => .text

def Field.encode : Field → Bytes
  | .word16 value => LittleEndian.encode 2 value.toNat
  | .word32 value => LittleEndian.encode 4 value.toNat
  | .word64 value => LittleEndian.encode 8 value.toNat
  | .text value => encodeText value

/-! ## Reading -/

/-- A computation that takes fields off the front of the unread bytes. -/
abbrev Reader := ExceptT WireError (StateM Bytes)

namespace Reader

/-- Runs a reader on the bytes: its result, and the bytes that it leaves unread. -/
def read {α : Type} (reader : Reader α) (bytes : Bytes) : Except WireError α × Bytes :=
  reader.run.run bytes

/-- The next `needed` bytes.  Fails without taking any if fewer are left. -/
def take (needed : Nat) : Reader Bytes :=
  ExceptT.mk fun bytes =>
    let front := bytes.take needed
    if front.length < needed then (.error (.truncated needed front.length), bytes)
    else (.ok front, bytes.drop needed)

def word (width : Nat) : Reader Nat := LittleEndian.decode <$> take width

def word16 : Reader UInt16 := UInt16.ofNat <$> word 2

def word32 : Reader UInt32 := UInt32.ofNat <$> word 4

def word64 : Reader UInt64 := UInt64.ofNat <$> word 8

def text : Reader String := do
  let length ← word 2
  let bytes ← take length
  match Utf8.decode bytes with
  | some s => pure s
  | none => throw .invalidUtf8

end Reader

def Kind.read : Kind → Reader Field
  | .word16 => Field.word16 <$> Reader.word16
  | .word32 => Field.word32 <$> Reader.word32
  | .word64 => Field.word64 <$> Reader.word64
  | .text => Field.text <$> Reader.text

/-- Reads one field after another, going on after failures: each result with the
    bytes left after it. -/
def readEach : List Kind → Bytes → List (Except WireError Field × Bytes)
  | [], _ => []
  | kind :: kinds, bytes =>
    let step := kind.read.read bytes
    step :: readEach kinds step.2

end Rendezvous.Wire

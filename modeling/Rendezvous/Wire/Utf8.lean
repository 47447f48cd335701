import Rendezvous.Wire.LittleEndian

/-! # UTF-8

Texts travel as UTF-8.  `encode` writes a text, `decode` reads one and refuses
ill-formed input, and `decodeLossy` reads any input by putting U+FFFD for each
ill-formed part.  Both readers rest on one step, `next`: it takes the first
character off the input, or the longest part that begins a character and cannot
be continued to one.

`longestPrefix` cuts a text to a number of bytes without splitting a character.
-/

namespace Rendezvous.Wire.Utf8

/-! ## Writing -/

def encode (s : String) : Bytes := s.toList.flatMap String.utf8EncodeChar

/-- The longest run of leading characters whose bytes number at most `limit`. -/
def takeWithin : Nat → List Char → List Char
  | _, [] => []
  | limit, c :: cs =>
    if c.utf8Size ≤ limit then c :: takeWithin (limit - c.utf8Size) cs else []

/-- The longest prefix of a text, in whole characters, of at most `limit` bytes. -/
def longestPrefix (limit : Nat) (s : String) : String :=
  String.ofList (takeWithin limit s.toList)

/-! ## Reading -/

/-- What a lead byte announces: how many bytes follow it, the range of the first
    of them (which excludes overlong forms, surrogates and numbers above
    U+10FFFF), and the high bits of the character's number. -/
structure Lead where
  more : Nat
  low : UInt8
  high : UInt8
  bits : Nat

/-- The announcement of a byte above 0x7F, if it may begin a character. -/
def Lead.ofByte? (b : UInt8) : Option Lead :=
  if b < 0xC2 then none
  else if b < 0xE0 then some ⟨1, 0x80, 0xBF, b.toNat - 0xC0⟩
  else if b = 0xE0 then some ⟨2, 0xA0, 0xBF, 0⟩
  else if b = 0xED then some ⟨2, 0x80, 0x9F, 0xD⟩
  else if b < 0xF0 then some ⟨2, 0x80, 0xBF, b.toNat - 0xE0⟩
  else if b = 0xF0 then some ⟨3, 0x90, 0xBF, 0⟩
  else if b < 0xF4 then some ⟨3, 0x80, 0xBF, b.toNat - 0xF0⟩
  else if b = 0xF4 then some ⟨3, 0x80, 0x8F, 4⟩
  else none

/-- Reads the bytes after a lead byte: `more` of them, the first between `low`
    and `high`, each adding six bits.  Stops before the first that does not fit. -/
def continuation : Nat → UInt8 → UInt8 → Nat → Bytes → Option Char × Bytes
  | 0, _, _, bits, rest => (some (Char.ofNat bits), rest)
  | _ + 1, _, _, _, [] => (none, [])
  | more + 1, low, high, bits, b :: rest =>
    if low ≤ b ∧ b ≤ high then
      continuation more 0x80 0xBF (bits * 64 + (b.toNat - 0x80)) rest
    else (none, b :: rest)

/-- One step of reading: the character that a lead byte and the input after it
    begin with, or nothing if they begin with an ill-formed part, and what
    follows that character or part. -/
def next (b : UInt8) (rest : Bytes) : Option Char × Bytes :=
  if b < 0x80 then (some (Char.ofNat b.toNat), rest)
  else match Lead.ofByte? b with
    | none => (none, rest)
    | some lead => continuation lead.more lead.low lead.high lead.bits rest

theorem length_continuation_le (more : Nat) (low high : UInt8) (bits : Nat) (rest : Bytes) :
    (continuation more low high bits rest).2.length ≤ rest.length := by
  induction rest generalizing more low high bits with
  | nil => cases more <;> simp [continuation]
  | cons b rest ih =>
    cases more with
    | zero => simp [continuation]
    | succ more =>
      simp only [continuation]
      split
      · exact Nat.le_succ_of_le (ih ..)
      · simp

theorem length_next_le (b : UInt8) (rest : Bytes) : (next b rest).2.length ≤ rest.length := by
  unfold next
  split
  · simp
  · split
    · simp
    · exact length_continuation_le ..

/-- The characters of the input in order, with nothing for each ill-formed part. -/
def scan : Bytes → List (Option Char)
  | [] => []
  | b :: rest => (next b rest).1 :: scan (next b rest).2
termination_by bytes => bytes.length
decreasing_by exact Nat.lt_succ_of_le (length_next_le b rest)

def decode (bytes : Bytes) : Option String := ((scan bytes).mapM id).map String.ofList

/-- The text that the bytes spell, with U+FFFD for each ill-formed part. -/
def decodeLossy (bytes : Bytes) : String :=
  String.ofList ((scan bytes).map fun c => c.getD '\uFFFD')

end Rendezvous.Wire.Utf8

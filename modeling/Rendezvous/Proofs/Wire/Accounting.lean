import Rendezvous.Proofs.Wire.Field

/-! # What every read takes

A reader that fails keeps its bytes and can be asked for something else, so what it is asked
for next is looked for wherever the failure has left it.  `Kind.Takes` says where that is:
what one read of a kind answers, and how many bytes it takes off the front, told from the
bytes alone.  A word is taken whole or not at all.  A text is not, and it has three ways to
fail: without its length it takes nothing, without its bytes it takes the length, and with
bytes that are no text it takes all of them.

`Accounts` follows this through any number of reads, each of which starts where the one before
it has stopped, whatever that one has answered.  There is one account of a sequence of reads,
and it is what the reader does (`reads_accounted_for`).
-/

namespace Rendezvous.Wire

/-! ## What a read should take -/

/-- The number that the first `width` bytes are the digits of, the lowest digit first. -/
def LittleEndian.leading (width : Nat) (bytes : Bytes) : Nat :=
  Nat.ofDigits 256 ((bytes.take width).map UInt8.toNat)

open LittleEndian (leading)

def Field.number? : Field → Option Nat
  | .word16 value => some value.toNat
  | .word32 value => some value.toNat
  | .word64 value => some value.toNat
  | .text _ => none

/-- How many bytes the number has that a field of a kind begins with.  A word is nothing but
    this number, and in a text it is the length. -/
def Kind.width : Kind → Nat
  | .word16 => 2
  | .word32 => 4
  | .word64 => 8
  | .text => 2

/-- What a read of a kind answers, and how many bytes it takes off the front. -/
inductive Kind.Takes (bytes : Bytes) : Kind → Except WireError Field → Nat → Prop
  /-- The word, or the length of the text, is not all there. -/
  | cut (kind : Kind) (short : bytes.length < kind.width) :
      Takes bytes kind (.error (.truncated kind.width bytes.length)) 0
  | word {field : Field} (enough : field.kind.width ≤ bytes.length)
      (number : field.number? = some (leading field.kind.width bytes)) :
      Takes bytes field.kind (.ok field) field.kind.width
  /-- There are fewer bytes behind the length than it says. -/
  | textCut (headed : 2 ≤ bytes.length) (short : bytes.length - 2 < leading 2 bytes) :
      Takes bytes .text (.error (.truncated (leading 2 bytes) (bytes.length - 2))) 2
  | text {s : String} (enough : 2 + leading 2 bytes ≤ bytes.length)
      (spelled : s.toByteArray = ((bytes.drop 2).take (leading 2 bytes)).toByteArray) :
      Takes bytes .text (.ok (.text s)) (2 + leading 2 bytes)
  | illFormed (enough : 2 + leading 2 bytes ≤ bytes.length)
      (invalid : ¬((bytes.drop 2).take (leading 2 bytes)).toByteArray.IsValidUTF8) :
      Takes bytes .text (.error .invalidUtf8) (2 + leading 2 bytes)

variable {bytes rest : Bytes} {kind : Kind}

/-! ## Words -/

theorem LittleEndian.leading_lt {width : Nat} (enough : width ≤ bytes.length) :
    leading width bytes < 256 ^ width := by
  have bound := decode_lt (bytes.take width)
  rwa [List.length_take_of_le enough, decode_eq_ofDigits] at bound

theorem Reader.read_word_enough {width : Nat} (enough : width ≤ bytes.length) :
    (word width).read bytes = (.ok (leading width bytes), bytes.drop width) := by
  rw [word, read_map _ (read_take_enough enough), LittleEndian.decode_eq_ofDigits, leading]

namespace Field

theorem exists_of_number {n : Nat} (isWord : kind ≠ .text) (fits : n < 256 ^ kind.width) :
    ∃ field : Field, field.kind = kind ∧ field.number? = some n := by
  cases kind with
  | word16 =>
    exact ⟨.word16 (UInt16.ofNat n), rfl, congrArg some (UInt16.toNat_ofNat_of_lt' fits)⟩
  | word32 =>
    exact ⟨.word32 (UInt32.ofNat n), rfl, congrArg some (UInt32.toNat_ofNat_of_lt' fits)⟩
  | word64 =>
    exact ⟨.word64 (UInt64.ofNat n), rfl, congrArg some (UInt64.toNat_ofNat_of_lt' fits)⟩
  | text => exact absurd rfl isWord

theorem read_of_number {field : Field} {n : Nat} (number : field.number? = some n)
    (read : (Reader.word field.kind.width).read bytes = (.ok n, rest)) :
    field.kind.read.read bytes = (.ok field, rest) := by
  cases field with
  | text => cases number
  | word16 | word32 | word64 =>
    cases number
    refine (Reader.read_map _ (Reader.read_map _ read)).trans ?_
    simp only [UInt16.ofNat_toNat, UInt32.ofNat_toNat, UInt64.ofNat_toNat]

end Field

theorem Kind.read_cut (short : bytes.length < kind.width) :
    kind.read.read bytes = (.error (.truncated kind.width bytes.length), bytes) := by
  have failed : (Reader.word kind.width).read bytes =
      (.error (.truncated kind.width bytes.length), bytes) :=
    Reader.read_map_error _ (Reader.read_take_short short)
  cases kind with
  | text => exact Reader.read_map_error _ (Reader.read_bind_error _ failed)
  | word16 | word32 | word64 =>
    exact Reader.read_map_error _ (Reader.read_map_error _ failed)

/-! ## Texts -/

namespace Reader

theorem read_text_cut (headed : 2 ≤ bytes.length) (short : bytes.length - 2 < leading 2 bytes) :
    text.read bytes =
      (.error (.truncated (leading 2 bytes) (bytes.length - 2)), bytes.drop 2) := by
  rw [← List.length_drop] at short ⊢
  rw [text, read_bind _ (read_word_enough headed), read_bind_error _ (read_take_short short)]

theorem read_text_enough (enough : 2 + leading 2 bytes ≤ bytes.length) :
    text.read bytes =
      (match Utf8.decode ((bytes.drop 2).take (leading 2 bytes)) with
        | some s => .ok s
        | none => .error .invalidUtf8,
        bytes.drop (2 + leading 2 bytes)) := by
  have room : leading 2 bytes ≤ (bytes.drop 2).length := by
    rw [List.length_drop]
    omega
  rw [text, read_bind _ (read_word_enough (Nat.le_of_add_right_le enough)),
    read_bind _ (read_take_enough room), List.drop_drop]
  cases Utf8.decode ((bytes.drop 2).take (leading 2 bytes)) <;> rfl

end Reader

/-! ## One read -/

namespace Kind

theorem exists_takes (kind : Kind) (bytes : Bytes) :
    ∃ result taken, kind.Takes bytes result taken := by
  by_cases short : bytes.length < kind.width
  · exact ⟨_, _, .cut kind short⟩
  have headed : kind.width ≤ bytes.length := Nat.not_lt.mp short
  by_cases isText : kind = .text
  · obtain rfl := isText
    have headed : 2 ≤ bytes.length := headed
    by_cases enough : 2 + leading 2 bytes ≤ bytes.length
    · by_cases valid : ((bytes.drop 2).take (leading 2 bytes)).toByteArray.IsValidUTF8
      · exact ⟨_, _, .text (s := ⟨_, valid⟩) enough rfl⟩
      · exact ⟨_, _, .illFormed enough valid⟩
    · exact ⟨_, _, .textCut headed (by omega)⟩
  · obtain ⟨field, rfl, number⟩ :=
      Field.exists_of_number isText (LittleEndian.leading_lt headed)
    exact ⟨_, _, .word headed number⟩

theorem Takes.read_eq {result : Except WireError Field} {taken : Nat}
    (takes : kind.Takes bytes result taken) :
    kind.read.read bytes = (result, bytes.drop taken) := by
  cases takes with
  | cut _ short => exact read_cut short
  | word enough number => exact Field.read_of_number number (Reader.read_word_enough enough)
  | textCut headed short => exact Reader.read_map_error _ (Reader.read_text_cut headed short)
  | text enough spelled =>
    have read := Reader.read_text_enough enough
    rw [Utf8.decode_eq_some_iff.mpr spelled] at read
    exact Reader.read_map _ read
  | illFormed enough invalid =>
    have read := Reader.read_text_enough enough
    rw [Utf8.decode_eq_none_iff.mpr invalid] at read
    exact Reader.read_map_error _ read

end Kind

/-! ## One read after another -/

/-- The account of a sequence of reads: each answers and takes what it should from the bytes
    that those before it have left. -/
inductive Accounts : List Kind → Bytes → List (Except WireError Field × Bytes) → Prop
  | done (bytes : Bytes) : Accounts [] bytes []
  | further {kind : Kind} {kinds : List Kind} {bytes : Bytes} {result : Except WireError Field}
      {taken : Nat} {steps : List (Except WireError Field × Bytes)}
      (first : kind.Takes bytes result taken) (onward : Accounts kinds (bytes.drop taken) steps) :
      Accounts (kind :: kinds) bytes ((result, bytes.drop taken) :: steps)

theorem accounts_readEach (kinds : List Kind) (bytes : Bytes) :
    Accounts kinds bytes (readEach kinds bytes) := by
  induction kinds generalizing bytes with
  | nil => exact .done bytes
  | cons kind kinds inductionHypothesis =>
    obtain ⟨result, taken, first⟩ := kind.exists_takes bytes
    rw [readEach, first.read_eq]
    exact .further first (inductionHypothesis (bytes.drop taken))

namespace Accounts

variable {kinds : List Kind} {steps : List (Except WireError Field × Bytes)}

theorem readEach_eq (accounts : Accounts kinds bytes steps) : readEach kinds bytes = steps := by
  induction accounts with
  | done => rfl
  | further first _ inductionHypothesis => rw [readEach, first.read_eq, inductionHypothesis]

theorem pairwise_suffix (accounts : Accounts kinds bytes steps) :
    (bytes :: steps.map Prod.snd).Pairwise fun before after => after <:+ before := by
  induction accounts with
  | done bytes => exact List.pairwise_singleton _ bytes
  | @further _ _ bytes _ taken _ _ _ inductionHypothesis =>
    have ends : bytes.drop taken <:+ bytes := List.drop_suffix taken bytes
    refine List.pairwise_cons.mpr ⟨fun left later => ?_, inductionHypothesis⟩
    -- what a later read leaves is a suffix of what this one leaves
    rcases List.mem_cons.mp later with rfl | later
    · exact ends
    · exact (List.rel_of_pairwise_cons inductionHypothesis later).trans ends

end Accounts

/-- Any fields may be asked for in any bytes, one after another, and there is one account of
    what comes of it: it is what the reader does, however many of the reads fail on the way.
    All that is ever left is a suffix of the bytes, and of all that was left before. -/
theorem reads_accounted_for (kinds : List Kind) (bytes : Bytes) :
    (∀ steps, readEach kinds bytes = steps ↔ Accounts kinds bytes steps) ∧
      (bytes :: (readEach kinds bytes).map Prod.snd).Pairwise
        fun before after => after <:+ before := by
  have accounts := accounts_readEach kinds bytes
  refine ⟨fun steps => ⟨?_, Accounts.readEach_eq⟩, accounts.pairwise_suffix⟩
  rintro rfl
  exact accounts

/-- A word that is cut off leaves the bytes to the text behind it, and this text leaves what
    is behind its length to the next read. -/
example :
    readEach [.word64, .text, .word16] [10, 0, 97, 0] =
      [(.error (.truncated 8 4), [10, 0, 97, 0]), (.error (.truncated 10 2), [97, 0]),
        (.ok (.word16 97), [])] := by
  decide

end Rendezvous.Wire

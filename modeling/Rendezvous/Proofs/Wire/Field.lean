import Rendezvous.Proofs.Wire.LittleEndian
import Rendezvous.Proofs.Wire.Utf8
import Rendezvous.Wire.Field

/-! # Reading fields back

Each reader is followed through the bytes that the matching writer has left: it
takes exactly those and leaves the rest (`read_word32`, `read_text` and so on).

The other way round, a reader that succeeds has taken nothing else: what it took
off the front is what the writer writes for its answer (`of_read_word32`,
`of_read_text` and so on).  For texts this rests on UTF-8 having one form for
each text, and on a text that was read being short enough not to be cut.
-/

namespace Rendezvous.Wire.Reader

/-! ## Running -/

section Running

variable {α β : Type} {reader : Reader α} {bytes rest : Bytes} {a : α} {b : β}

theorem read_pure (a : α) (bytes : Bytes) : (pure a : Reader α).read bytes = (.ok a, bytes) := rfl

theorem read_bind (f : α → Reader β) (done : reader.read bytes = (.ok a, rest)) :
    (reader >>= f).read bytes = (f a).read rest := by
  simp only [read, ExceptT.run_bind, StateT.run_bind] at done ⊢
  rw [done]
  rfl

theorem read_map (f : α → β) (done : reader.read bytes = (.ok a, rest)) :
    (f <$> reader).read bytes = (.ok (f a), rest) := by
  rw [← bind_pure_comp, read_bind _ done, read_pure]

theorem of_read_bind {f : α → Reader β} (done : (reader >>= f).read bytes = (.ok b, rest)) :
    ∃ a left, reader.read bytes = (.ok a, left) ∧ (f a).read left = (.ok b, rest) := by
  cases first : reader.read bytes with
  | mk result left =>
    cases result with
    | ok a =>
      rw [read_bind f first] at done
      exact ⟨a, left, rfl, done⟩
    | error error =>
      simp only [read, ExceptT.run_bind, StateT.run_bind] at done first
      rw [first] at done
      cases done

theorem read_bind_error {error : WireError} (f : α → Reader β)
    (failed : reader.read bytes = (.error error, rest)) :
    (reader >>= f).read bytes = (.error error, rest) := by
  simp only [read, ExceptT.run_bind, StateT.run_bind] at failed ⊢
  rw [failed]
  rfl

theorem of_read_bind_error {error : WireError} {f : α → Reader β}
    (failed : (reader >>= f).read bytes = (.error error, rest)) :
    reader.read bytes = (.error error, rest) ∨
      ∃ a left, reader.read bytes = (.ok a, left) ∧ (f a).read left = (.error error, rest) := by
  cases first : reader.read bytes with
  | mk result left =>
    cases result with
    | ok a =>
      rw [read_bind f first] at failed
      exact .inr ⟨a, left, rfl, failed⟩
    | error error' =>
      rw [read_bind_error f first] at failed
      cases failed
      exact .inl rfl

theorem read_map_error {error : WireError} (f : α → β)
    (failed : reader.read bytes = (.error error, rest)) :
    (f <$> reader).read bytes = (.error error, rest) := by
  rw [← bind_pure_comp, read_bind_error _ failed]

theorem of_read_map {f : α → β} (done : (f <$> reader).read bytes = (.ok b, rest)) :
    ∃ a, reader.read bytes = (.ok a, rest) ∧ f a = b := by
  rw [← bind_pure_comp] at done
  obtain ⟨a, left, first, last⟩ := of_read_bind done
  cases last
  exact ⟨a, first, rfl⟩

end Running

/-! ## Reading what was written -/

theorem read_take (front rest : Bytes) :
    (take front.length).read (front ++ rest) = (.ok front, rest) := by
  simp [take, read, ExceptT.run_mk, StateT.run]

theorem read_take_enough {needed : Nat} {bytes : Bytes} (enough : needed ≤ bytes.length) :
    (take needed).read bytes = (.ok (bytes.take needed), bytes.drop needed) := by
  have taken := read_take (bytes.take needed) (bytes.drop needed)
  rwa [List.length_take_of_le enough, List.take_append_drop] at taken

theorem read_take_short {needed : Nat} {bytes : Bytes} (short : bytes.length < needed) :
    (take needed).read bytes = (.error (.truncated needed bytes.length), bytes) := by
  have whole : bytes.take needed = bytes := List.take_of_length_le (Nat.le_of_lt short)
  simp only [take, read, ExceptT.run_mk, StateT.run, whole, if_pos short]

theorem read_word (width n : Nat) (rest : Bytes) :
    (word width).read (LittleEndian.encode width n ++ rest) = (.ok (n % 256 ^ width), rest) := by
  have taken := read_take (LittleEndian.encode width n) rest
  rw [LittleEndian.length_encode] at taken
  rw [word, read_map _ taken, LittleEndian.decode_encode]

/-- A number that fits its width is read back as it is, whatever it stands for. -/
theorem read_ofNat {α : Type} (ofNat : Nat → α) {width n : Nat} (fits : n < 256 ^ width)
    (rest : Bytes) :
    (ofNat <$> word width).read (LittleEndian.encode width n ++ rest) = (.ok (ofNat n), rest) := by
  rw [read_map _ (read_word width n rest), Nat.mod_eq_of_lt fits]

theorem read_word16 (value : UInt16) (rest : Bytes) :
    word16.read (Field.encode (.word16 value) ++ rest) = (.ok value, rest) := by
  rw [word16, Field.encode, read_ofNat UInt16.ofNat value.toNat_lt, UInt16.ofNat_toNat]

theorem read_word32 (value : UInt32) (rest : Bytes) :
    word32.read (Field.encode (.word32 value) ++ rest) = (.ok value, rest) := by
  rw [word32, Field.encode, read_ofNat UInt32.ofNat value.toNat_lt, UInt32.ofNat_toNat]

theorem read_word64 (value : UInt64) (rest : Bytes) :
    word64.read (Field.encode (.word64 value) ++ rest) = (.ok value, rest) := by
  rw [word64, Field.encode, read_ofNat UInt64.ofNat value.toNat_lt, UInt64.ofNat_toNat]

/-- A text is read back cut to what its length field can say. -/
theorem read_text (s : String) (rest : Bytes) :
    text.read (Field.encode (.text s) ++ rest) =
      (.ok (Utf8.longestPrefix maxTextLength s), rest) := by
  have bound := Utf8.longestPrefix_le maxTextLength s
  rw [Field.encode, encodeText]
  generalize Utf8.longestPrefix maxTextLength s = kept at bound
  -- a cut text is short enough for its length field to say its length
  have length : kept.utf8ByteSize % 256 ^ 2 = (Utf8.encode kept).length := by
    rw [maxTextLength] at bound
    rw [Utf8.length_encode]
    omega
  rw [text, List.append_assoc, read_bind _ (read_word 2 kept.utf8ByteSize _), length,
    read_bind _ (read_take (Utf8.encode kept) rest), Utf8.decode_encode]
  rfl

/-! ## What was read was written -/

section Written

variable {bytes rest : Bytes}

theorem of_read_take {needed : Nat} {front : Bytes}
    (done : (take needed).read bytes = (.ok front, rest)) :
    front.length = needed ∧ bytes = front ++ rest := by
  by_cases short : bytes.length < needed
  · rw [read_take_short short] at done
    cases done
  · have enough : needed ≤ bytes.length := Nat.not_lt.mp short
    rw [read_take_enough enough] at done
    cases done
    exact ⟨List.length_take_of_le enough, (List.take_append_drop needed bytes).symm⟩

theorem of_read_take_error {needed : Nat} {error : WireError}
    (failed : (take needed).read bytes = (.error error, rest)) :
    bytes.length < needed ∧ error = .truncated needed bytes.length ∧ rest = bytes := by
  by_cases short : bytes.length < needed
  · rw [read_take_short short] at failed
    cases failed
    exact ⟨short, rfl, rfl⟩
  · rw [read_take_enough (Nat.not_lt.mp short)] at failed
    cases failed

theorem of_read_word {width n : Nat} (done : (word width).read bytes = (.ok n, rest)) :
    n < 256 ^ width ∧ bytes = LittleEndian.encode width n ++ rest := by
  obtain ⟨digits, taken, rfl⟩ := of_read_map done
  obtain ⟨rfl, rfl⟩ := of_read_take taken
  rw [LittleEndian.encode_decode]
  exact ⟨LittleEndian.decode_lt digits, rfl⟩

/-- Where no number of the width is lost in reading it, the number of what is read is the one
    that was written. -/
theorem of_read_ofNat {α : Type} {ofNat : Nat → α} {toNat : α → Nat} {width : Nat} {value : α}
    (faithful : ∀ n < 256 ^ width, toNat (ofNat n) = n)
    (done : (ofNat <$> word width).read bytes = (.ok value, rest)) :
    bytes = LittleEndian.encode width (toNat value) ++ rest := by
  obtain ⟨n, taken, rfl⟩ := of_read_map done
  obtain ⟨fits, written⟩ := of_read_word taken
  rw [faithful n fits]
  exact written

theorem of_read_word32 {value : UInt32} (done : word32.read bytes = (.ok value, rest)) :
    bytes = Field.encode (.word32 value) ++ rest :=
  of_read_ofNat (fun _ fits => UInt32.toNat_ofNat_of_lt' fits) done

theorem of_read_word64 {value : UInt64} (done : word64.read bytes = (.ok value, rest)) :
    bytes = Field.encode (.word64 value) ++ rest :=
  of_read_ofNat (fun _ fits => UInt64.toNat_ofNat_of_lt' fits) done

/-- A text that is read is short enough to be written whole, and was written so. -/
theorem of_read_text {s : String} (done : text.read bytes = (.ok s, rest)) :
    s.utf8ByteSize ≤ maxTextLength ∧ bytes = Field.encode (.text s) ++ rest := by
  obtain ⟨length, others, counted, afterLength⟩ := of_read_bind done
  obtain ⟨spelled, left, taken, afterText⟩ := of_read_bind afterLength
  obtain ⟨bound, rfl⟩ := of_read_word counted
  obtain ⟨rfl, rfl⟩ := of_read_take taken
  cases decoded : Utf8.decode spelled with
  | none => rw [decoded] at afterText; cases afterText
  | some found =>
    rw [decoded] at afterText
    cases afterText
    have same := Utf8.encode_of_decode decoded
    have size : s.utf8ByteSize = spelled.length := by rw [← same, Utf8.length_encode]
    -- its length was read from two bytes
    have fits : s.utf8ByteSize ≤ maxTextLength := by
      rw [size, maxTextLength]
      omega
    refine ⟨fits, ?_⟩
    rw [Field.encode, encodeText, Utf8.longestPrefix_eq_self fits, size, same, List.append_assoc]

end Written

end Rendezvous.Wire.Reader
